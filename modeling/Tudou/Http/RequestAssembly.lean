import Mathlib.Data.List.Nodup
import Mathlib.Data.List.TakeWhile
import Tudou.Http.HttpContext

/-!
# Requests from fragmented callbacks

How `HttpContext` (`src/tudou/http/HttpContext.cpp`) puts a request together when llhttp hands out its
parts in fragments, whatever happened on the context before.

* `HttpMessage`, `IsRequestOf` — a message in one piece, and the request a handler is to see.
* `Fragments` — the parts of a message as fragments, in any interleaving that keeps each part in order.
* `HeaderParts` — what the callbacks keep of the headers; `HeaderParts.pieces` — a header in fragments
  is one header.
* `request_of_fragments` — **the request at completion is that of the message.**
-/

namespace Tudou

/-- A message in one piece; `method` is what `llhttp_method_name` says. -/
structure HttpMessage where
  method : Option Bytes
  url : Bytes
  headers : List (Bytes × Bytes)
  body : Bytes
  httpMajor : Nat
  httpMinor : Nat
  deriving DecidableEq, Repr

/-- The url is the path, or the path and a query behind the first `?`. -/
structure SplitsUrl (url path query : Bytes) : Prop where
  noMark : 63 ∉ path
  parts : url = path ∧ query = [] ∨ url = path ++ 63 :: query

/-- **The request of a message**: of a repeated header the last value counts. -/
structure IsRequestOf (m : HttpMessage) (r : HttpRequest) : Prop where
  method : r.method = m.method.getD []
  url : r.url = m.url
  splits : SplitsUrl r.url r.path r.query
  version : r.version =
    .ofLiteral "HTTP/" ++ .ofNat m.httpMajor ++ .ofLiteral "." ++ .ofNat m.httpMinor
  headers : ∀ field, r.headers.lookup field = m.headers.reverse.lookup field
  headersNodup : (r.headers.map Prod.fst).Nodup
  body : r.body = m.body

/-! ## Fragments -/

/-- A fragment of a header. -/
inductive HeaderPiece where
  | field (piece : Bytes)
  | value (piece : Bytes)
  deriving DecidableEq, Repr

namespace SpanKind

def urlPiece : SpanKind × Bytes → Option (Option Bytes × Bytes)
  | (url method, piece) => some (method, piece)
  | _ => none

def headerPiece : SpanKind × Bytes → Option HeaderPiece
  | (headerField, piece) => some (.field piece)
  | (headerValue, piece) => some (.value piece)
  | _ => none

def bodyPiece : SpanKind × Bytes → Option Bytes
  | (body, piece) => some piece
  | _ => none

end SpanKind

/-- Headers in fragments: at least one for each name, which is not empty, and for each value. -/
inductive HeaderPieces : List (Bytes × Bytes) → List HeaderPiece → Prop
  | nil : HeaderPieces [] []
  | cons {fields values : List Bytes} {headers : List (Bytes × Bytes)} {pieces : List HeaderPiece} :
      fields.flatten ≠ [] → values ≠ [] → HeaderPieces headers pieces →
      HeaderPieces ((fields.flatten, values.flatten) :: headers)
        (fields.map .field ++ values.map .value ++ pieces)

/-- The spans are fragments of the message: at least one of the url, and each part in its order. -/
structure Fragments (m : HttpMessage) (spans : List (SpanKind × Bytes)) : Prop where
  url : ∃ pieces ≠ [], spans.filterMap SpanKind.urlPiece = pieces.map (m.method, ·) ∧
    pieces.flatten = m.url
  headers : HeaderPieces m.headers (spans.filterMap SpanKind.headerPiece)
  body : (spans.filterMap SpanKind.bodyPiece).flatten = m.body

/-- The callbacks of one message. -/
def HttpMessage.callbacks (m : HttpMessage) (spans : List (SpanKind × Bytes)) : List LlhttpEvent :=
  .messageBegin :: spans.map (fun span => .span span.1 span.2) ++
    [.messageComplete m.httpMajor m.httpMinor]

/-! ## Headers -/

/-- What the context keeps of the headers. -/
structure HeaderParts where
  headers : List (Bytes × Bytes)
  currentHeaderField : Bytes
  currentHeaderValue : Bytes
  lastWasValue : Bool

namespace HeaderParts

def flush (p : HeaderParts) : HeaderParts :=
  if p.lastWasValue then
    ⟨if p.currentHeaderField = [] then p.headers
      else setHeader p.currentHeaderField p.currentHeaderValue p.headers, [], [], false⟩
  else p

def handle (p : HeaderParts) : HeaderPiece → HeaderParts
  | .field piece =>
    { p.flush with currentHeaderField := p.flush.currentHeaderField ++ piece }
  | .value piece =>
    { p with currentHeaderValue := p.currentHeaderValue ++ piece, lastWasValue := true }

/-- No header is open, or one that has its value. -/
def Closed (p : HeaderParts) : Prop :=
  p.lastWasValue = true ∨ p.currentHeaderField = [] ∧ p.currentHeaderValue = []

theorem flush_of_closed {p : HeaderParts} (h : p.Closed) : p.flush = ⟨p.flush.headers, [], [], false⟩ := by
  unfold flush
  cases hlast : p.lastWasValue with
  | true => rfl
  | false =>
    obtain ⟨hfield, hvalue⟩ := h.resolve_left (by simp [hlast])
    cases p
    simp_all

/-- The fragments of a name, behind an open name. -/
theorem fields_open {headers : List (Bytes × Bytes)} {field : Bytes} (fields : List Bytes) :
    (fields.map HeaderPiece.field).foldl handle ⟨headers, field, [], false⟩ =
      ⟨headers, field ++ fields.flatten, [], false⟩ := by
  induction fields generalizing field with
  | nil => simp
  | cons piece fields ih =>
    rw [List.map_cons, List.foldl_cons]
    show List.foldl handle ⟨headers, field ++ piece, [], false⟩ _ = _
    rw [ih, List.flatten_cons, List.append_assoc]

/-- The fragments of a name, behind a closed header: there is at least one. -/
theorem fields_closed {p : HeaderParts} (h : p.Closed) {fields : List Bytes} (hne : fields ≠ []) :
    (fields.map HeaderPiece.field).foldl handle p = ⟨p.flush.headers, fields.flatten, [], false⟩ := by
  cases fields with
  | nil => exact absurd rfl hne
  | cons piece fields =>
    have hfirst : p.handle (.field piece) = ⟨p.flush.headers, piece, [], false⟩ := by
      simp only [handle]
      rw [flush_of_closed h]
      rfl
    rw [List.map_cons, List.foldl_cons, hfirst, fields_open, List.flatten_cons]

/-- The fragments of a value: there is at least one. -/
theorem values_open {p : HeaderParts} {values : List Bytes} (hne : values ≠ []) :
    (values.map HeaderPiece.value).foldl handle p =
      { p with currentHeaderValue := p.currentHeaderValue ++ values.flatten, lastWasValue := true } := by
  induction values generalizing p with
  | nil => exact absurd rfl hne
  | cons piece values ih =>
    rw [List.map_cons, List.foldl_cons]
    by_cases hrest : values = []
    · subst hrest
      simp [handle]
    · rw [ih hrest]
      simp [handle]

/-- **Headers in fragments are headers**: flushed at the end, the last value of each counts. -/
theorem pieces {headers : List (Bytes × Bytes)} {pieces : List HeaderPiece}
    (h : HeaderPieces headers pieces) {p : HeaderParts} (hp : p.Closed) :
    (pieces.foldl handle p).flush.headers =
      headers.foldl (fun hs kv => setHeader kv.1 kv.2 hs) p.flush.headers := by
  induction h generalizing p with
  | nil => rfl
  | @cons fields values headers pieces hname hvalues _ ih =>
    have hfields : fields ≠ [] := by
      rintro rfl
      exact hname rfl
    rw [List.foldl_append, List.foldl_append, fields_closed hp hfields, values_open hvalues,
      ih (.inl rfl), List.foldl_cons]
    simp [flush, hname]

end HeaderParts

/-- A list of headers written one after the other: the last value of each counts. -/
theorem lookup_foldl_setHeader (headers hs : List (Bytes × Bytes)) (field : Bytes) :
    (headers.foldl (fun hs kv => setHeader kv.1 kv.2 hs) hs).lookup field =
      (headers.reverse.lookup field).or (hs.lookup field) := by
  induction headers generalizing hs with
  | nil => rfl
  | cons kv headers ih =>
    obtain ⟨f, v⟩ := kv
    rw [List.foldl_cons, ih, lookup_setHeader, List.reverse_cons, List.lookup_append]
    cases headers.reverse.lookup field with
    | some value => rfl
    | none =>
      by_cases h : field = f
      · simp [h]
      · simp [h, List.lookup_cons, beq_eq_false_iff_ne.mpr h]

theorem nodup_foldl_setHeader (headers : List (Bytes × Bytes)) {hs : List (Bytes × Bytes)}
    (h : (hs.map Prod.fst).Nodup) :
    ((headers.foldl (fun hs kv => setHeader kv.1 kv.2 hs) hs).map Prod.fst).Nodup := by
  induction headers generalizing hs with
  | nil => exact h
  | cons kv headers ih =>
    rw [List.foldl_cons]
    apply ih
    rw [fields_setHeader]
    split
    · exact h
    · rename_i hnot
      exact List.nodup_append.mpr ⟨h, List.nodup_singleton _, fun a ha b hb => by
        rw [List.mem_singleton.mp hb]
        rintro rfl
        exact hnot ha⟩

/-! ## The parts of a message are kept apart -/

namespace HttpContext

variable {P : Type*}

def headerParts (c : HttpContext P) : HeaderParts :=
  ⟨c.request.headers, c.currentHeaderField, c.currentHeaderValue, c.lastWasValue⟩

theorem headerParts_flushPendingHeader (c : HttpContext P) :
    c.flushPendingHeader.headerParts = c.headerParts.flush := by
  unfold flushPendingHeader HeaderParts.flush
  cases hlast : c.lastWasValue with
  | true =>
    by_cases hfield : c.currentHeaderField = []
    · simp [headerParts, hlast, hfield]
    · simp [headerParts, hlast, hfield]
  | false => simp [headerParts, hlast]

/-- Flushing a header touches nothing else. -/
theorem flushPendingHeader_rest (c : HttpContext P) :
    c.flushPendingHeader.currentUrl = c.currentUrl ∧
      c.flushPendingHeader.request.method = c.request.method ∧
      c.flushPendingHeader.request.body = c.request.body := by
  unfold flushPendingHeader
  split
  · split
    · exact ⟨rfl, rfl, rfl⟩
    · exact ⟨rfl, rfl, rfl⟩
  · exact ⟨rfl, rfl, rfl⟩

/-- A context and the parts of a message that it has seen so far. -/
structure Collects (c c' : HttpContext P) (spans : List (SpanKind × Bytes)) : Prop where
  url : c'.currentUrl = c.currentUrl ++ ((spans.filterMap SpanKind.urlPiece).map Prod.snd).flatten
  method : c'.request.method =
    (spans.filterMap SpanKind.urlPiece).foldl (fun name piece => piece.1.getD name) c.request.method
  headers : c'.headerParts = (spans.filterMap SpanKind.headerPiece).foldl HeaderParts.handle c.headerParts
  body : c'.request.body = c.request.body ++ (spans.filterMap SpanKind.bodyPiece).flatten

/-- **The callbacks keep the parts apart**, each in its order. -/
theorem collects (spans : List (SpanKind × Bytes)) (c : HttpContext P) :
    Collects c ((spans.map fun span => LlhttpEvent.span span.1 span.2).foldl handle c) spans := by
  induction spans generalizing c with
  | nil => exact ⟨by simp, by simp, rfl, by simp⟩
  | cons span spans ih =>
    obtain ⟨kind, piece⟩ := span
    have h := ih (c.handle (.span kind piece))
    rw [List.map_cons, List.foldl_cons]
    cases kind with
    | url method =>
      have hmethod : (c.handle (.span (.url method) piece)).request.method =
          method.getD c.request.method := by
        cases method with
        | none => rfl
        | some name => rfl
      refine ⟨?_, ?_, ?_, ?_⟩
      · rw [h.url]
        simp [handle, onUrl, SpanKind.urlPiece]
      · rw [h.method, hmethod]
        rfl
      · rw [h.headers]
        cases method with
        | none => rfl
        | some name => rfl
      · rw [h.body]
        cases method with
        | none => rfl
        | some name => rfl
    | headerField =>
      obtain ⟨hurl, hmethod, hbody⟩ := c.flushPendingHeader_rest
      refine ⟨?_, ?_, ?_, ?_⟩
      · rw [h.url]
        exact congrArg (· ++ _) hurl
      · rw [h.method]
        exact congrArg (List.foldl _ · _) hmethod
      · have hparts : (c.handle (.span .headerField piece)).headerParts =
            c.headerParts.handle (.field piece) := by
          simp only [HeaderParts.handle, ← headerParts_flushPendingHeader]
          rfl
        rw [h.headers, hparts]
        rfl
      · rw [h.body]
        exact congrArg (· ++ _) hbody
    | headerValue => exact ⟨h.url, h.method, h.headers, h.body⟩
    | body =>
      refine ⟨h.url, h.method, h.headers, ?_⟩
      rw [h.body]
      simp [handle, onBody, SpanKind.bodyPiece]

/-- Every fragment of the url comes with the method. -/
theorem foldl_method {method : Option Bytes} {name : Bytes} {pieces : List Bytes} (h : pieces ≠ []) :
    (pieces.map (method, ·)).foldl (fun name piece => piece.1.getD name) name = method.getD name := by
  induction pieces generalizing name with
  | nil => exact absurd rfl h
  | cons piece pieces ih =>
    rw [List.map_cons, List.foldl_cons]
    by_cases hrest : pieces = []
    · subst hrest
      rfl
    · rw [ih hrest]
      cases method with
      | none => rfl
      | some m => rfl

/-- The request line is split at the first `?`. -/
theorem splitsUrl (url : Bytes) :
    SplitsUrl url (url.takeWhile (· != 63)) ((url.dropWhile (· != 63)).drop 1) := by
  refine ⟨fun hmem => ?_, ?_⟩
  · have := List.mem_takeWhile_imp hmem
    simp at this
  · have hsplit := List.takeWhile_append_dropWhile (p := fun b : Byte => b != 63) (l := url)
    cases hdrop : url.dropWhile (· != 63) with
    | nil =>
      rw [hdrop, List.append_nil] at hsplit
      exact .inl ⟨hsplit.symm, rfl⟩
    | cons b query =>
      have hmark : b = 63 := by
        have := List.head_dropWhile_not (fun b : Byte => b != 63) (l := url) (by rw [hdrop]; simp)
        simpa [hdrop] using this
      rw [hdrop, hmark] at hsplit
      exact .inr (by simpa using hsplit.symm)

/-- What happens to a context between two messages: callbacks of a message that may be abandoned, and
`reset()`. -/
inductive ContextOp where
  | callback (e : LlhttpEvent)
  | reset
  deriving DecidableEq, Repr

def perform (L : Llhttp P) (c : HttpContext P) : ContextOp → HttpContext P
  | .callback e => c.handle e
  | .reset => c.reset L

/-- **The request at completion is that of the message**, however its parts were fragmented and
whatever happened on the context before. -/
theorem request_of_fragments (L : Llhttp P) (history : List ContextOp) (m : HttpMessage)
    (spans : List (SpanKind × Bytes)) (h : Fragments m spans) :
    ((m.callbacks spans).foldl handle (history.foldl (perform L) (create L))).messageComplete = true ∧
      IsRequestOf m
        ((m.callbacks spans).foldl handle (history.foldl (perform L) (create L))).request := by
  generalize history.foldl (perform L) (create L) = c
  obtain ⟨pieces, hpieces, hurls, hflat⟩ := h.url
  have hcollects := collects spans c.resetMessageState
  rw [HttpMessage.callbacks, List.cons_append, List.foldl_cons, List.foldl_append, List.foldl_cons,
    List.foldl_nil]
  change (onMessageComplete m.httpMajor m.httpMinor _).messageComplete = true ∧
    IsRequestOf m (onMessageComplete m.httpMajor m.httpMinor _).request
  change Collects c.resetMessageState (List.foldl handle (c.handle .messageBegin) _) spans at hcollects
  generalize (spans.map fun span => LlhttpEvent.span span.1 span.2).foldl handle
    (c.handle .messageBegin) = c' at hcollects
  obtain ⟨hurl, hmethod, hbody⟩ := c'.flushPendingHeader_rest
  have hcurrent : c'.flushPendingHeader.currentUrl = m.url := by
    rw [hurl, hcollects.url, hurls, List.map_map]
    simpa [resetMessageState, Function.comp_def] using hflat
  -- flushed once more, the headers are those of the message
  have hheaders : c'.flushPendingHeader.request.headers =
      m.headers.foldl (fun hs kv => setHeader kv.1 kv.2 hs) [] := by
    have hparts := c'.headerParts_flushPendingHeader
    rw [hcollects.headers] at hparts
    calc c'.flushPendingHeader.request.headers
        = c'.flushPendingHeader.headerParts.headers := rfl
      _ = _ := by rw [hparts, HeaderParts.pieces h.headers (.inr ⟨rfl, rfl⟩)]; rfl
  refine ⟨rfl, ?_, hcurrent, splitsUrl _, rfl, fun field => ?_, ?_, ?_⟩
  · show c'.flushPendingHeader.request.method = _
    rw [hmethod, hcollects.method, hurls]
    exact foldl_method hpieces
  · show c'.flushPendingHeader.request.headers.lookup field = _
    rw [hheaders, lookup_foldl_setHeader]
    exact Option.or_none
  · show (c'.flushPendingHeader.request.headers.map Prod.fst).Nodup
    rw [hheaders]
    exact nodup_foldl_setHeader _ List.nodup_nil
  · show c'.flushPendingHeader.request.body = _
    rw [hbody, hcollects.body, h.body]
    rfl

/-- A parser nothing is fed to. -/
def unfed : Llhttp Unit := ⟨(), fun _ _ => ⟨(), [], .ok, none⟩, id, id⟩

/-- A message that is abandoned in the middle of a header, a `reset()`, and one that is abandoned at
its body. -/
def abandoned : List ContextOp :=
  [.callback .messageBegin, .callback (.span (.url (some (.ofLiteral "PUT"))) (.ofLiteral "/old?q")),
    .callback (.span .headerField (.ofLiteral "Host")), .callback (.span .headerValue (.ofLiteral "a")),
    .callback (.span .headerField (.ofLiteral "X")), .reset, .callback .messageBegin,
    .callback (.span .headerField (.ofLiteral "Y")), .callback (.span .headerValue []),
    .callback (.span .body (.ofLiteral "old"))]

/-- A header twice, and one without a value. -/
def pageMessage : HttpMessage where
  method := some (.ofLiteral "GET")
  url := .ofLiteral "/page?n=1"
  headers := [(.ofLiteral "Host", .ofLiteral "a"), (.ofLiteral "Empty", []),
    (.ofLiteral "Host", .ofLiteral "bc")]
  body := .ofLiteral "xyz"
  httpMajor := 1
  httpMinor := 1

def pageSpans : List (SpanKind × Bytes) :=
  [(.url (some (.ofLiteral "GET")), .ofLiteral "/pa"),
    (.url (some (.ofLiteral "GET")), .ofLiteral "ge?n=1"),
    (.headerField, .ofLiteral "Host"), (.headerValue, .ofLiteral "a"),
    (.headerField, .ofLiteral "Em"), (.headerField, .ofLiteral "pty"), (.headerValue, []),
    (.body, .ofLiteral "x"),
    (.headerField, .ofLiteral "Host"), (.headerValue, .ofLiteral "b"), (.headerValue, .ofLiteral "c"),
    (.body, .ofLiteral "yz")]

theorem fragments_page : Fragments pageMessage pageSpans where
  url := ⟨[.ofLiteral "/pa", .ofLiteral "ge?n=1"], by simp, by decide, by decide⟩
  headers := by
    have hlast := @HeaderPieces.cons [.ofLiteral "Host"] [.ofLiteral "b", .ofLiteral "c"] [] []
      (by decide) (by simp) .nil
    have hempty := @HeaderPieces.cons [.ofLiteral "Em", .ofLiteral "pty"] [[]] _ _
      (by decide) (by simp) hlast
    exact @HeaderPieces.cons [.ofLiteral "Host"] [.ofLiteral "a"] _ _ (by decide) (by simp) hempty
  body := by decide

theorem request_of_fragments_page :
    Fragments pageMessage pageSpans ∧
      ((pageMessage.callbacks pageSpans).foldl handle
        (abandoned.foldl (perform unfed) (create unfed))).messageComplete = true ∧
      IsRequestOf pageMessage ((pageMessage.callbacks pageSpans).foldl handle
        (abandoned.foldl (perform unfed) (create unfed))).request :=
  ⟨fragments_page, request_of_fragments unfed abandoned pageMessage pageSpans fragments_page⟩

end HttpContext

end Tudou
