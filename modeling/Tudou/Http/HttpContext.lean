import Mathlib.Logic.Relation
import Tudou.Foundation.Resumable
import Tudou.Tcp.Buffer

/-!
# `HttpContext`: from the callbacks of llhttp to an `HttpRequest`

Model of `src/tudou/http/HttpContext.{h,cpp}` and `src/tudou/http/HttpRequest.{h,cpp}`.  llhttp
itself is not part of the repository: `Llhttp` is the interface the context uses, with the callbacks
that one `llhttp_execute` makes as a list of events.

* `HttpRequest`, `HttpContext` — the members; `handle` — the six registered callbacks.
* `Llhttp.Incremental` — what the context relies on: input may be cut anywhere, and a message pauses
  the parser behind its last byte.
* `foldl_handle_of_sameSpans` — **the callbacks do not see where a span was cut**.
* `httpParser` — the context as a resumable parser of requests.
-/

namespace Tudou

open Framing

/-- The bytes of an ASCII literal. -/
def Bytes.ofLiteral (text : String) : Bytes := text.toList.map fun c => UInt8.ofNat c.toNat

/-- `std::to_string(n)`. -/
def Bytes.ofNat (n : Nat) : Bytes := ofLiteral n.repr

/-- `headers_[field] = value`: a field that is there keeps its place. -/
def setHeader (field value : Bytes) : List (Bytes × Bytes) → List (Bytes × Bytes)
  | [] => [(field, value)]
  | (f, v) :: headers =>
    if f = field then (field, value) :: headers else (f, v) :: setHeader field value headers

theorem lookup_setHeader (field value : Bytes) (headers : List (Bytes × Bytes)) (f : Bytes) :
    (setHeader field value headers).lookup f = if f = field then some value else headers.lookup f := by
  induction headers with
  | nil =>
    by_cases h : f = field
    · simp [setHeader, h]
    · simp [setHeader, h, List.lookup_cons, beq_eq_false_iff_ne.mpr h]
  | cons kv headers ih =>
    obtain ⟨f', v⟩ := kv
    unfold setHeader
    split
    · rename_i heq
      by_cases h : f = field
      · simp [h]
      · simp [h, List.lookup_cons, beq_eq_false_iff_ne.mpr h, beq_eq_false_iff_ne.mpr (heq ▸ h)]
    · rename_i hne
      by_cases h' : f = f'
      · subst h'
        simp [hne]
      · simp [List.lookup_cons, beq_eq_false_iff_ne.mpr h', ih]

/-- A new field is listed last. -/
theorem fields_setHeader (field value : Bytes) (headers : List (Bytes × Bytes)) :
    (setHeader field value headers).map Prod.fst =
      if field ∈ headers.map Prod.fst then headers.map Prod.fst
      else headers.map Prod.fst ++ [field] := by
  induction headers with
  | nil => rfl
  | cons kv headers ih =>
    obtain ⟨f, v⟩ := kv
    by_cases h : f = field
    · simp [setHeader, h]
    · by_cases hmem : field ∈ headers.map Prod.fst
      · simp only [setHeader, if_neg h, List.map_cons, ih, List.mem_cons, hmem, or_true, if_true]
      · simp only [setHeader, if_neg h, List.map_cons, ih, List.mem_cons, hmem, or_false, Ne.symm h,
          if_false, List.cons_append]

theorem mem_setHeader {field value : Bytes} {kv : Bytes × Bytes} {headers : List (Bytes × Bytes)}
    (h : kv ∈ setHeader field value headers) : kv = (field, value) ∨ kv ∈ headers := by
  induction headers with
  | nil => exact .inl (List.mem_singleton.mp h)
  | cons header headers ih =>
    obtain ⟨f, v⟩ := header
    unfold setHeader at h
    split at h
    · rcases List.mem_cons.mp h with h | h
      · exact .inl h
      · exact .inr (List.mem_cons_of_mem _ h)
    · rcases List.mem_cons.mp h with h | h
      · exact .inr (h ▸ List.mem_cons_self)
      · exact (ih h).imp_right (List.mem_cons_of_mem _)

/-- `HttpRequest`. -/
structure HttpRequest where
  method : Bytes := []
  url : Bytes := []
  path : Bytes := []
  query : Bytes := []
  version : Bytes := []
  headers : List (Bytes × Bytes) := []
  body : Bytes := []
  deriving DecidableEq, Repr

/-! ## llhttp -/

/-- The callbacks that get a piece of the input. -/
inductive SpanKind where
  /-- With `llhttp_method_name` of the parser's method, `none` for a null pointer. -/
  | url (method : Option Bytes)
  | headerField
  | headerValue
  | body
  deriving DecidableEq, Repr

/-- A callback of `llhttp_execute`; a span may come in pieces. -/
inductive LlhttpEvent where
  | messageBegin
  | span (kind : SpanKind) (piece : Bytes)
  | messageComplete (httpMajor httpMinor : Nat)
  deriving DecidableEq, Repr

/-- `llhttp_errno_t`. -/
inductive LlhttpErrno where
  | ok
  | paused
  | pausedUpgrade
  | error (code : Nat)
  deriving DecidableEq, Repr

/-- What one `llhttp_execute` does; `errorPos` counts from the start of its input. -/
structure Execution (P : Type*) where
  parser : P
  events : List LlhttpEvent
  errno : LlhttpErrno
  errorPos : Option Nat

/-- llhttp with the callbacks of `HttpContext`: `on_message_complete` returns `HPE_PAUSED`, the
others return 0. -/
structure Llhttp (P : Type*) where
  init : P
  execute : P → Bytes → Execution P
  reset : P → P
  resume : P → P

/-- One span of the second list comes in two pieces in the first. -/
def CutSpan (es es' : List LlhttpEvent) : Prop :=
  ∃ before after kind a b, es = before ++ .span kind a :: .span kind b :: after ∧
    es' = before ++ .span kind (a ++ b) :: after

/-- The same callbacks, but for where the spans are cut. -/
def SameSpans : List LlhttpEvent → List LlhttpEvent → Prop := Relation.EqvGen CutSpan

namespace Execution

variable {P : Type*}

/-- The input of `second` follows the `k` bytes of `first`. -/
def after (first : Execution P) (k : Nat) (second : Execution P) : Execution P :=
  { second with
    events := first.events ++ second.events
    errorPos := second.errorPos.map (k + ·) }

def Failed (e : Execution P) : Prop := ∃ code, e.errno = .error code

structure Same (e e' : Execution P) : Prop where
  parser : e.parser = e'.parser
  errno : e.errno = e'.errno
  errorPos : e.errorPos = e'.errorPos
  spans : SameSpans e.events e'.events

/-- Both fail, or they are the same.  A span that is open at a failure is not reported, so what has
been reported by then depends on the cuts. -/
structure Agrees (e e' : Execution P) : Prop where
  failed_iff : e.Failed ↔ e'.Failed
  same : ¬e.Failed → e.Same e'

theorem Agrees.of_eq {e e' : Execution P} (h : e = e') : e.Agrees e' := by
  subst h
  exact ⟨Iff.rfl, fun _ => ⟨rfl, rfl, rfl, .refl _⟩⟩

end Execution

namespace Llhttp

variable {P : Type*} (L : Llhttp P)

/-- The states of a parser that was neither paused nor failed. -/
inductive Mid : P → Prop
  | init : Mid L.init
  | execute {p : P} {data : Bytes} : Mid p → data ≠ [] → (L.execute p data).errno = .ok →
      Mid (L.execute p data).parser

/-- **llhttp is an incremental parser.** -/
structure Incremental : Prop where
  resume_reset : ∀ p, L.resume (L.reset p) = L.init
  /-- Feeding in two pieces is feeding at once, unless it fails. -/
  ok_append : ∀ {p} xs ys, L.Mid p → xs ≠ [] → ys ≠ [] → (L.execute p xs).errno = .ok →
    (L.execute p (xs ++ ys)).Agrees
      ((L.execute p xs).after xs.length (L.execute (L.execute p xs).parser ys))
  /-- Nothing behind a pause or a failure is looked at. -/
  stop_append : ∀ {p} xs ys, L.Mid p → xs ≠ [] → (L.execute p xs).errno ≠ .ok →
    (L.execute p (xs ++ ys)).Agrees (L.execute p xs)
  ok_incomplete : ∀ {p} xs, L.Mid p → (L.execute p xs).errno = .ok →
    ∀ major minor, .messageComplete major minor ∉ (L.execute p xs).events
  /-- A pause is behind the last byte of a message, which is one of this input. -/
  paused_complete : ∀ {p} xs, L.Mid p →
    (L.execute p xs).errno = .paused ∨ (L.execute p xs).errno = .pausedUpgrade →
    ∃ before major minor consumed, (L.execute p xs).events = before ++ [.messageComplete major minor] ∧
      (L.execute p xs).errorPos = some consumed ∧ 0 < consumed ∧ consumed ≤ xs.length

end Llhttp

/-! ## The context -/

/-- `HttpContext`; `consumedBytes_` is returned by `parse`, after which it is read. -/
structure HttpContext (P : Type*) where
  parser : P
  request : HttpRequest
  messageComplete : Bool
  currentUrl : Bytes
  currentHeaderField : Bytes
  currentHeaderValue : Bytes
  lastWasValue : Bool

inductive ParseResult where
  | rejected
  | needMoreData
  | complete
  deriving DecidableEq, Repr

namespace HttpContext

variable {P : Type*}

/-- `HttpContext::HttpContext()`. -/
def create (L : Llhttp P) : HttpContext P := ⟨L.init, {}, false, [], [], [], false⟩

def withParser (c : HttpContext P) (p : P) : HttpContext P := { c with parser := p }

def resetMessageState (c : HttpContext P) : HttpContext P := ⟨c.parser, {}, false, [], [], [], false⟩

def flushPendingHeader (c : HttpContext P) : HttpContext P :=
  if c.lastWasValue then
    let request :=
      if c.currentHeaderField = [] then c.request
      else
        { c.request with
          headers := setHeader c.currentHeaderField c.currentHeaderValue c.request.headers }
    { c with request := request, currentHeaderField := [], currentHeaderValue := [], lastWasValue := false }
  else c

def onUrl (method : Option Bytes) (piece : Bytes) (c : HttpContext P) : HttpContext P :=
  { c with
    currentUrl := c.currentUrl ++ piece
    request := match method with
      | none => c.request
      | some m => { c.request with method := m } }

def onHeaderField (piece : Bytes) (c : HttpContext P) : HttpContext P :=
  let c := c.flushPendingHeader
  { c with currentHeaderField := c.currentHeaderField ++ piece }

def onHeaderValue (piece : Bytes) (c : HttpContext P) : HttpContext P :=
  { c with currentHeaderValue := c.currentHeaderValue ++ piece, lastWasValue := true }

def onBody (piece : Bytes) (c : HttpContext P) : HttpContext P :=
  { c with request := { c.request with body := c.request.body ++ piece } }

def onMessageComplete (httpMajor httpMinor : Nat) (c : HttpContext P) : HttpContext P :=
  let c := c.flushPendingHeader
  -- without a '?' the whole target is the path
  { c with
    request :=
      { c.request with
        url := c.currentUrl
        path := c.currentUrl.takeWhile (· != 63)
        query := (c.currentUrl.dropWhile (· != 63)).drop 1
        version := .ofLiteral "HTTP/" ++ .ofNat httpMajor ++ .ofLiteral "." ++ .ofNat httpMinor }
    messageComplete := true }

/-- The registered callbacks. -/
def handle (c : HttpContext P) : LlhttpEvent → HttpContext P
  | .messageBegin => c.resetMessageState
  | .span (.url method) piece => c.onUrl method piece
  | .span .headerField piece => c.onHeaderField piece
  | .span .headerValue piece => c.onHeaderValue piece
  | .span .body piece => c.onBody piece
  | .messageComplete httpMajor httpMinor => c.onMessageComplete httpMajor httpMinor

/-- `parse(data, len)` and `get_consumed_bytes()`. -/
def parse (L : Llhttp P) (data : Bytes) (c : HttpContext P) : HttpContext P × ParseResult × Nat :=
  let e := L.execute c.parser data
  let c := e.events.foldl handle (c.withParser e.parser)
  let result := if c.messageComplete then ParseResult.complete else .needMoreData
  match e.errno with
  | .ok => (c, result, data.length)
  | .paused | .pausedUpgrade => (c, result, e.errorPos.getD data.length)
  | .error _ => (c, .rejected, 0)

/-- `reset()`. -/
def reset (L : Llhttp P) (c : HttpContext P) : HttpContext P :=
  { c.resetMessageState with parser := L.resume (L.reset c.parser) }

theorem reset_eq {L : Llhttp P} (hL : L.Incremental) (c : HttpContext P) : c.reset L = create L := by
  simp only [reset, resetMessageState, hL.resume_reset, create]

/-! ## Spans in pieces -/

@[simp] theorem parser_flushPendingHeader (c : HttpContext P) :
    c.flushPendingHeader.parser = c.parser := by
  unfold flushPendingHeader
  split <;> rfl

@[simp] theorem flushPendingHeader_messageComplete (c : HttpContext P) :
    c.flushPendingHeader.messageComplete = c.messageComplete := by
  unfold flushPendingHeader
  split <;> rfl

@[simp] theorem flushPendingHeader_lastWasValue (c : HttpContext P) :
    c.flushPendingHeader.lastWasValue = false := by
  unfold flushPendingHeader
  split
  · rfl
  · rename_i h
    exact Bool.not_eq_true _ ▸ h

/-- **A callback on two pieces of a span** is one on the span. -/
theorem handle_pieces (c : HttpContext P) (kind : SpanKind) (a b : Bytes) :
    (c.handle (.span kind a)).handle (.span kind b) = c.handle (.span kind (a ++ b)) := by
  cases kind with
  | url method =>
    cases method with
    | none => simp [handle, onUrl]
    | some m => simp [handle, onUrl]
  | headerField =>
    have hflush : (c.onHeaderField a).flushPendingHeader = c.onHeaderField a := by
      unfold flushPendingHeader
      rw [if_neg]
      simp [onHeaderField]
    show (c.onHeaderField a).onHeaderField b = c.onHeaderField (a ++ b)
    rw [onHeaderField, hflush]
    simp [onHeaderField]
  | headerValue => simp [handle, onHeaderValue]
  | body => simp [handle, onBody]

/-- **The callbacks do not see where a span was cut.** -/
theorem foldl_handle_of_sameSpans {es es' : List LlhttpEvent} (h : SameSpans es es')
    (c : HttpContext P) : es.foldl handle c = es'.foldl handle c := by
  induction h with
  | rel es es' hcut =>
    obtain ⟨before, after, kind, a, b, rfl, rfl⟩ := hcut
    simp only [List.foldl_append, List.foldl_cons, handle_pieces]
  | refl es => rfl
  | symm es es' _ ih => exact ih.symm
  | trans es es' es'' _ _ ih ih' => exact ih.trans ih'

/-- No callback touches the parser. -/
theorem handle_withParser (c : HttpContext P) (p : P) (e : LlhttpEvent) :
    (c.withParser p).handle e = (c.handle e).withParser p := by
  have hflush : (c.withParser p).flushPendingHeader = c.flushPendingHeader.withParser p := by
    unfold flushPendingHeader
    cases hvalue : c.lastWasValue with
    | true => simp [withParser, hvalue]
    | false => simp [withParser, hvalue]
  cases e with
  | messageBegin => rfl
  | span kind piece =>
    cases kind with
    | headerField =>
      simp only [handle, onHeaderField, hflush]
      rfl
    | url | headerValue | body => rfl
  | messageComplete =>
    simp only [handle, onMessageComplete, hflush]
    rfl

theorem foldl_handle_withParser (es : List LlhttpEvent) (c : HttpContext P) (p : P) :
    es.foldl handle (c.withParser p) = (es.foldl handle c).withParser p := by
  induction es generalizing c with
  | nil => rfl
  | cons e es ih => rw [List.foldl_cons, handle_withParser, ih, List.foldl_cons]

theorem parser_foldl_handle_withParser (es : List LlhttpEvent) (c : HttpContext P) (p : P) :
    (es.foldl handle (c.withParser p)).parser = p := by
  rw [foldl_handle_withParser]
  rfl

/-- Only the end of a message completes it. -/
theorem foldl_handle_incomplete {es : List LlhttpEvent} {c : HttpContext P}
    (hc : c.messageComplete = false) (hes : ∀ major minor, .messageComplete major minor ∉ es) :
    (es.foldl handle c).messageComplete = false := by
  induction es generalizing c with
  | nil => exact hc
  | cons e es ih =>
    rw [List.foldl_cons]
    refine ih ?_ fun major minor h => hes major minor (List.mem_cons_of_mem e h)
    cases e with
    | messageBegin => rfl
    | span kind piece =>
      cases kind with
      | headerField => exact (flushPendingHeader_messageComplete c).trans hc
      | url | headerValue | body => exact hc
    | messageComplete major minor => exact absurd List.mem_cons_self (hes major minor)

end HttpContext

/-! ## The context as a parser of requests -/

namespace Execution

variable {P : Type*}

def verdict (e : Execution P) : Verdict :=
  match e.errno with
  | .ok => .more
  | .paused | .pausedUpgrade => .complete (e.errorPos.getD 0)
  | .error _ => .failed

theorem verdict_eq_failed {e : Execution P} : e.verdict = .failed ↔ e.Failed := by
  unfold verdict Failed
  cases e.errno <;> simp

theorem Agrees.verdict_eq {e e' : Execution P} (h : e.Agrees e') : e.verdict = e'.verdict := by
  by_cases hfailed : e.Failed
  · rw [verdict_eq_failed.mpr hfailed, verdict_eq_failed.mpr (h.failed_iff.mp hfailed)]
  · have hsame := h.same hfailed
    simp only [verdict, hsame.errno, hsame.errorPos]

theorem verdict_after {first second : Execution P} {k : Nat}
    (hpos : second.errno = .paused ∨ second.errno = .pausedUpgrade → second.errorPos ≠ none) :
    (first.after k second).verdict = second.verdict.later k := by
  have hpaused : second.errorPos ≠ none → (second.errorPos.map (k + ·)).getD 0 =
      k + second.errorPos.getD 0 := by
    intro h
    obtain ⟨n, hn⟩ := Option.ne_none_iff_exists'.mp h
    rw [hn]
    rfl
  simp only [verdict, after]
  cases he : second.errno with
  | ok => rfl
  | paused => exact congrArg Verdict.complete (hpaused (hpos (.inl he)))
  | pausedUpgrade => exact congrArg Verdict.complete (hpaused (hpos (.inr he)))
  | error code => rfl

theorem verdict_eq_more {e : Execution P} : e.verdict = .more ↔ e.errno = .ok := by
  unfold verdict
  cases e.errno <;> simp

theorem verdict_eq_complete {e : Execution P} {n : Nat} (h : e.verdict = .complete n) :
    (e.errno = .paused ∨ e.errno = .pausedUpgrade) ∧ e.errorPos.getD 0 = n := by
  unfold verdict at h
  cases he : e.errno with
  | ok => simp [he] at h
  | error code => simp [he] at h
  | paused => exact ⟨.inl rfl, by simpa [he] using h⟩
  | pausedUpgrade => exact ⟨.inr rfl, by simpa [he] using h⟩

end Execution

namespace HttpContext

variable {P : Type*} {L : Llhttp P}

/-- The result of `parse` and the bytes it consumed, as a verdict. -/
def verdictOf : ParseResult → Nat → Verdict
  | .needMoreData, _ => .more
  | .complete, consumed => .complete consumed
  | .rejected, _ => .failed

variable (L) in
def feed (c : HttpContext P) (data : Bytes) : HttpContext P × Verdict :=
  let (c, result, consumed) := c.parse L data
  (c, verdictOf result consumed)

variable (L) in
/-- In the middle of a request. -/
def Mid (c : HttpContext P) : Prop := L.Mid c.parser ∧ c.messageComplete = false

/-- **What `parse` does in the middle of a request**: run the callbacks, and say what llhttp says. -/
theorem feed_eq (hL : L.Incremental) {c : HttpContext P} (hc : c.Mid L) (data : Bytes) :
    c.feed L data =
      ((L.execute c.parser data).events.foldl handle
        (c.withParser (L.execute c.parser data).parser),
        (L.execute c.parser data).verdict) := by
  obtain ⟨hmid, hincomplete⟩ := hc
  have hpaused : (L.execute c.parser data).errno = .paused ∨
      (L.execute c.parser data).errno = .pausedUpgrade →
      ((L.execute c.parser data).events.foldl handle
        (c.withParser (L.execute c.parser data).parser)).messageComplete = true ∧
      (L.execute c.parser data).errorPos.getD data.length =
        (L.execute c.parser data).errorPos.getD 0 := by
    intro he
    obtain ⟨before, major, minor, consumed, hevents, hpos, -⟩ := hL.paused_complete data hmid he
    rw [hevents, hpos, List.foldl_append]
    exact ⟨rfl, rfl⟩
  unfold feed parse Execution.verdict
  cases he : (L.execute c.parser data).errno with
  | ok =>
    have hno : ((L.execute c.parser data).events.foldl handle
        (c.withParser (L.execute c.parser data).parser)).messageComplete = false :=
      foldl_handle_incomplete hincomplete (hL.ok_incomplete data hmid he)
    simp only [hno, Bool.false_eq_true, if_false, verdictOf, he]
  | paused =>
    obtain ⟨hcomplete, hpos⟩ := hpaused (.inl he)
    simp only [hcomplete, if_true, verdictOf, hpos, he]
  | pausedUpgrade =>
    obtain ⟨hcomplete, hpos⟩ := hpaused (.inr he)
    simp only [hcomplete, if_true, verdictOf, hpos, he]
  | error code => simp only [verdictOf, he]

/-- Executions that agree leave the same context, if they do not fail. -/
theorem feed_agrees (hL : L.Incremental) {c : HttpContext P} (hc : c.Mid L) {data : Bytes}
    {e : Execution P} (h : (L.execute c.parser data).Agrees e) :
    (c.feed L data).2 = e.verdict ∧
      (e.verdict ≠ .failed → (c.feed L data).1 = e.events.foldl handle (c.withParser e.parser)) := by
  rw [feed_eq hL hc]
  refine ⟨h.verdict_eq, fun hv => ?_⟩
  have hsame := h.same fun hfailed => hv (h.verdict_eq ▸ Execution.verdict_eq_failed.mpr hfailed)
  show (L.execute c.parser data).events.foldl handle _ = _
  rw [foldl_handle_of_sameSpans hsame.spans, hsame.parser]

theorem Mid.feed (hL : L.Incremental) {c c' : HttpContext P} {data : Bytes} (hc : c.Mid L)
    (hdata : data ≠ []) (hf : c.feed L data = (c', .more)) :
    c'.Mid L ∧ (L.execute c.parser data).errno = .ok := by
  rw [feed_eq hL hc, Prod.mk.injEq] at hf
  obtain ⟨rfl, hv⟩ := hf
  have hok := Execution.verdict_eq_more.mp hv
  refine ⟨⟨?_, foldl_handle_incomplete hc.2 (hL.ok_incomplete data hc.1 hok)⟩, hok⟩
  rw [parser_foldl_handle_withParser]
  exact hc.1.execute hdata hok

/-- An unfinished request takes the whole payload. -/
theorem parse_needMoreData (hL : L.Incremental) {c c' : HttpContext P} {data : Bytes} {consumed : Nat}
    (hc : c.Mid L) (hdata : data ≠ []) (h : c.parse L data = (c', .needMoreData, consumed)) :
    consumed = data.length := by
  have hfeed : c.feed L data = (c', .more) := by
    simp only [HttpContext.feed, h, verdictOf]
  obtain ⟨-, hok⟩ := hc.feed hL hdata hfeed
  simp only [parse, hok, Prod.mk.injEq] at h
  exact h.2.2.symm

/-- **The context is a resumable parser.** -/
def httpParser (hL : L.Incremental) : Resumable Byte (HttpContext P) where
  init := create L
  feed := feed L
  Mid := Mid L
  mid_init := ⟨.init, rfl⟩
  mid_feed := by
    intro c c' data hc hdata hf
    exact (hc.feed hL hdata hf).1
  bounds := by
    intro c c' data n hc hf
    rw [feed_eq hL hc, Prod.mk.injEq] at hf
    obtain ⟨hpaused, hn⟩ := Execution.verdict_eq_complete hf.2
    obtain ⟨_, _, _, consumed, _, hpos, hbounds⟩ := hL.paused_complete data hc.1 hpaused
    rw [hpos] at hn
    cases hn
    exact hbounds
  more_append := by
    intro c c' xs ys hc hxs hys hf
    obtain ⟨hc', hok⟩ := hc.feed hL hxs hf
    have hmid : L.Mid (L.execute c.parser xs).parser := hc.1.execute hxs hok
    have hverdict : ((L.execute c.parser xs).after xs.length
        (L.execute (L.execute c.parser xs).parser ys)).verdict =
          (L.execute (L.execute c.parser xs).parser ys).verdict.later xs.length := by
      refine Execution.verdict_after fun he => ?_
      obtain ⟨_, _, _, consumed, _, hpos, _⟩ := hL.paused_complete ys hmid he
      rw [hpos]
      exact Option.some_ne_none consumed
    obtain ⟨hv, hcontext⟩ := feed_agrees hL hc (hL.ok_append xs ys hc.1 hxs hys hok)
    rw [hverdict] at hv hcontext
    rw [feed_eq hL hc']
    rw [feed_eq hL hc, Prod.mk.injEq] at hf
    obtain ⟨rfl, -⟩ := hf
    rw [parser_foldl_handle_withParser]
    refine ⟨hv, fun hne => (hcontext ?_).trans ?_⟩
    · cases hcase : (L.execute (L.execute c.parser xs).parser ys).verdict with
      | more | complete => exact nofun
      | failed => exact absurd hcase hne
    · simp only [Execution.after, List.foldl_append, foldl_handle_withParser]
      rfl
  complete_append := by
    intro c c' xs n ys hc hf
    have hf' := hf
    rw [feed_eq hL hc, Prod.mk.injEq] at hf
    obtain ⟨hpaused, -⟩ := Execution.verdict_eq_complete hf.2
    obtain ⟨_, _, _, consumed, _, _, hpos, hle⟩ := hL.paused_complete xs hc.1 hpaused
    have hxs : xs ≠ [] := List.ne_nil_of_length_pos (by omega)
    have hstop : (L.execute c.parser xs).errno ≠ .ok := by
      rcases hpaused with h | h <;> rw [h] <;> exact nofun
    obtain ⟨hv, hcontext⟩ := feed_agrees hL hc (hL.stop_append xs ys hc.1 hxs hstop)
    have hsame : c.feed L (xs ++ ys) = c.feed L xs := by
      rw [feed_eq hL hc xs]
      exact Prod.ext (hcontext (by rw [hf.2]; exact nofun)) hv
    rw [hsame, hf']
  failed_append := by
    intro c xs ys hc hxs hf
    have hstop : (L.execute c.parser xs).errno ≠ .ok := by
      intro hok
      rw [feed_eq hL hc, Execution.verdict_eq_more.mpr hok] at hf
      cases hf
    rw [feed_eq hL hc] at hf
    exact (feed_agrees hL hc (hL.stop_append xs ys hc.1 hxs hstop)).1.trans hf

end HttpContext

end Tudou
