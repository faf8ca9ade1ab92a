import Tudou.Http.HttpResponse

/-!
# The request loop of `HttpServer::on_message`

Model of the second stage of `HttpServer::on_message` in `src/tudou/http/HttpServer.cpp`: parse the
payload, reply to each complete request, look the connection state up again, and go on.

* `OnMessage`, `advance` — the loop, cut at its calls into the connection, so that a caller can run
  it against any connection; what a response makes of the connection is a parameter (`HttpReply`).
* `HttpSession.onMessage` — the loop against a connection that is open as long as `net` says so and
  nobody asked to close it.
* `passes` — **one pass through the loop** waits for more, rejects, or replies to one request.
* `run_ends` — the loop ends on every payload, and keeps what every reply keeps.
-/

namespace Tudou

open Framing

/-- What `on_message` does with a message. -/
inductive HttpOutcome where
  | dispatched (request : HttpRequest)
  /-- Answered with 400. -/
  | rejected
  deriving DecidableEq, Repr

/-- Where `on_message` stands between two of its calls into the connection. -/
inductive HttpPhase where
  /-- At the head of the `while` loop, with the payload from `consumed` on. -/
  | loop (rest : Bytes)
  /-- In `send_http_response`, with the requests still to be made of the connection; after a
  rejection there is no `rest` to go on with. -/
  | reply (todo : List Request) (rest : Option Bytes)
  | done
  deriving DecidableEq, Repr

theorem HttpPhase.loop_ne_done (rest : Bytes) : loop rest ≠ done := nofun

theorem HttpPhase.reply_ne_done (todo : List Request) (rest : Option Bytes) : reply todo rest ≠ done :=
  nofun

/-- What `router_.dispatch` makes of a request, with the state of the registered handlers. -/
abbrev HttpHandler (ω : Type*) := HttpRequest → ω → HttpResponse × ω

/-- `send_http_response`: the requests it makes of the connection, given the TLS part of the
`ConnectionState`. -/
abbrev HttpReply (τ : Type*) := HttpResponse → τ → List Request × τ

/-- `send_http_response` on a connection without TLS. -/
def plainReply : HttpReply Unit := fun response tls => (response.sendHttpResponse, tls)

/-- A running `on_message`: the context and the TLS part of the `ConnectionState`, the state of the
handlers and what was done so far. -/
structure OnMessage (P ω τ : Type*) where
  context : HttpContext P
  world : ω
  tls : τ
  log : List HttpOutcome
  phase : HttpPhase

/-- `HttpResponse::plain_text(400, kBadRequestMessage, kBadRequestMessage)`. -/
def badRequest : HttpResponse := .plainText 400 kBadRequestMessage kBadRequestMessage

namespace OnMessage

variable {P ω τ : Type*}

/-- One pass through the loop body, up to the reply. -/
def parseNext (L : Llhttp P) (handler : HttpHandler ω) (reply : HttpReply τ) (rest : Bytes)
    (m : OnMessage P ω τ) : OnMessage P ω τ :=
  let (context, result, lastConsumed) := m.context.parse L rest
  match result with
  | .needMoreData =>
    -- nothing consumed: leave instead of parsing the same bytes again
    { m with
      context := context
      phase := if lastConsumed = 0 then .done else .loop (rest.drop lastConsumed) }
  | .rejected =>
    let (todo, tls) := reply badRequest m.tls
    { m with
      context := context
      tls := tls
      log := m.log ++ [.rejected]
      phase := .reply todo none }
  | .complete =>
    let (response, world) := handler context.request m.world
    let (todo, tls) := reply response m.tls
    { context := context
      world := world
      tls := tls
      log := m.log ++ [.dispatched context.request]
      phase := .reply todo (some (rest.drop lastConsumed)) }

/-- Go on up to the next call into the connection, which is returned; `hasState` is what
`find_connection_state` finds. -/
def advance (L : Llhttp P) (handler : HttpHandler ω) (reply : HttpReply τ) (hasState : Bool)
    (m : OnMessage P ω τ) : OnMessage P ω τ × Option Request :=
  match m.phase with
  | .loop rest =>
    (if rest = [] then { m with phase := .done } else m.parseNext L handler reply rest, none)
  | .reply (r :: todo) rest => ({ m with phase := .reply todo rest }, some r)
  | .reply [] none => ({ m with context := m.context.reset L, phase := .done }, none)
  | .reply [] (some rest) =>
    ({ m with
        context := m.context.reset L
        phase := if hasState then .loop rest else .done }, none)
  | .done => (m, none)

end OnMessage

/-! ## The loop against a connection -/

/-- A connection: the context and the TLS part of its `ConnectionState`, the handlers' state, what
was done and what the connection was asked for. -/
structure HttpSession (P ω τ : Type*) where
  context : HttpContext P
  world : ω
  tls : τ
  log : List HttpOutcome
  issued : List Request

namespace HttpSession

variable {P ω τ : Type*} (L : Llhttp P) (handler : HttpHandler ω) (reply : HttpReply τ)
  (net : List Request → Bool)

def create (world : ω) (tls : τ) : HttpSession P ω τ := ⟨.create L, world, tls, [], []⟩

/-- The `ConnectionState` is there until the connection closes: when the network says so, or when
it is asked to. -/
def isOpen (issued : List Request) : Bool := net issued && !issued.contains .forceClose

/-- Run the loop for at most `fuel` steps, `none` if it has not ended then. -/
def run : Nat → OnMessage P ω τ → List Request → Option (HttpSession P ω τ)
  | 0, m, issued => if m.phase = .done then some ⟨m.context, m.world, m.tls, m.log, issued⟩ else none
  | fuel + 1, m, issued =>
    if m.phase = .done then some ⟨m.context, m.world, m.tls, m.log, issued⟩
    else
      let (m, request) := m.advance L handler reply (isOpen net issued)
      run fuel m (issued ++ request.toList)

/-- The second stage of `on_message`, on a payload. -/
def serve (fuel : Nat) (s : HttpSession P ω τ) (payload : Bytes) : Option (HttpSession P ω τ) :=
  run L handler reply net fuel ⟨s.context, s.world, s.tls, s.log, .loop payload⟩ s.issued

/-- `on_message(conn)` for data received on a connection without TLS. -/
def onMessage (fuel : Nat) (s : HttpSession P ω τ) (receivedData : Bytes) :
    Option (HttpSession P ω τ) :=
  if receivedData = [] then some s
  else if isOpen net s.issued then s.serve L handler reply net fuel receivedData
  else some s

/-- The payloads of a connection, one after the other. -/
def receiveAll (fuel : Nat) : HttpSession P ω τ → List Bytes → Option (HttpSession P ω τ)
  | s, [] => some s
  | s, data :: datas =>
    match s.onMessage L handler reply net fuel data with
    | none => none
    | some s => receiveAll fuel s datas

variable {L handler reply net}

theorem run_done {m : OnMessage P ω τ} {issued : List Request} (hm : m.phase = .done) (fuel : Nat) :
    run L handler reply net fuel m issued = some ⟨m.context, m.world, m.tls, m.log, issued⟩ := by
  cases fuel with
  | zero => simp only [run, if_pos hm]
  | succ fuel => simp only [run, if_pos hm]

theorem run_advance {m : OnMessage P ω τ} {issued : List Request} (hm : m.phase ≠ .done) (fuel : Nat) :
    run L handler reply net (fuel + 1) m issued =
      run L handler reply net fuel (m.advance L handler reply (isOpen net issued)).1
        (issued ++ (m.advance L handler reply (isOpen net issued)).2.toList) := by
  simp only [run, if_neg hm]

/-- A reply: the requests are made, and the loop goes on if the connection is still there. -/
theorem run_reply {context : HttpContext P} {w : ω} {t : τ} {log : List HttpOutcome}
    {issued todo : List Request} {rest : Bytes} (fuel : Nat) :
    run L handler reply net (fuel + todo.length + 1) ⟨context, w, t, log, .reply todo (some rest)⟩
        issued =
      run L handler reply net fuel
        ⟨context.reset L, w, t, log, if isOpen net (issued ++ todo) then .loop rest else .done⟩
        (issued ++ todo) := by
  induction todo generalizing issued with
  | nil =>
    rw [List.length_nil, Nat.add_zero, run_advance (by exact HttpPhase.reply_ne_done _ _), List.append_nil]
    simp only [OnMessage.advance, Option.toList_none, List.append_nil]
  | cons r todo ih =>
    rw [List.length_cons, ← Nat.add_assoc, run_advance (by exact HttpPhase.reply_ne_done _ _)]
    simp only [OnMessage.advance, Option.toList_some]
    rw [ih, List.append_assoc, List.singleton_append]

/-- The reply to a rejected message: the requests are made, and the loop ends. -/
theorem run_rejected {context : HttpContext P} {w : ω} {t : τ} {log : List HttpOutcome}
    {issued todo : List Request} (fuel : Nat) :
    run L handler reply net (fuel + todo.length + 1) ⟨context, w, t, log, .reply todo none⟩ issued =
      some ⟨context.reset L, w, t, log, issued ++ todo⟩ := by
  induction todo generalizing issued with
  | nil =>
    rw [List.length_nil, Nat.add_zero, run_advance (by exact HttpPhase.reply_ne_done _ _)]
    simp only [OnMessage.advance, Option.toList_none, List.append_nil]
    exact run_done rfl fuel
  | cons r todo ih =>
    rw [List.length_cons, ← Nat.add_assoc, run_advance (by exact HttpPhase.reply_ne_done _ _)]
    simp only [OnMessage.advance, Option.toList_some]
    rw [ih, List.append_assoc, List.singleton_append]

/-! ## One pass through the loop -/

/-- The requests in a byte stream: feed it to a fresh context, take a request off, start again. -/
def requests (hL : L.Incremental) : Splitter Byte HttpRequest :=
  (HttpContext.httpParser hL).splitter HttpContext.request

/-- The three ways through the loop from its head, with `left` read before and `rest` to go. -/
inductive Passes (hL : L.Incremental) (handler : HttpHandler ω) (reply : HttpReply τ)
    (net : List Request → Bool) (left rest : Bytes) (w : ω) (t : τ) (log : List HttpOutcome)
    (issued : List Request) (start : OnMessage P ω τ) : Prop
  /-- Wait for more. -/
  | more {context : HttpContext P} : (HttpContext.httpParser hL).Reads context (left ++ rest) →
    (∀ fuel, run L handler reply net (fuel + 2) start issued = some ⟨context, w, t, log, issued⟩) →
    Passes hL handler reply net left rest w t log issued start
  | rejected (k : Nat) : (requests hL).split (left ++ rest) = ([], none) →
    (∀ fuel, run L handler reply net (fuel + k) start issued =
      some ⟨.create L, w, (reply badRequest t).2, log ++ [.rejected],
        issued ++ (reply badRequest t).1⟩) →
    Passes hL handler reply net left rest w t log issued start
  /-- Reply to a request, and go on behind it. -/
  | complete {request : HttpRequest} {rest' : Bytes} (k : Nat) : rest'.length < rest.length →
    (requests hL).split (left ++ rest) =
      (request :: ((requests hL).split rest').1, ((requests hL).split rest').2) →
    (∀ fuel, run L handler reply net (fuel + k) start issued =
      run L handler reply net fuel
        ⟨.create L, (handler request w).2, (reply (handler request w).1 t).2,
          log ++ [.dispatched request],
          if isOpen net (issued ++ (reply (handler request w).1 t).1) then .loop rest' else .done⟩
        (issued ++ (reply (handler request w).1 t).1)) →
    Passes hL handler reply net left rest w t log issued start

/-- **One pass through the loop.** -/
theorem passes (hL : L.Incremental) {context : HttpContext P} {left rest : Bytes}
    (hreads : (HttpContext.httpParser hL).Reads context left) (hrest : rest ≠ []) (w : ω) (t : τ)
    (log : List HttpOutcome) (issued : List Request) :
    Passes hL handler reply net left rest w t log issued ⟨context, w, t, log, .loop rest⟩ := by
  have hpos : 0 < rest.length := List.length_pos_iff.mpr hrest
  cases hparse : context.parse L rest with
  | mk context' parsed =>
    obtain ⟨result, consumed⟩ := parsed
    have hfeed : (HttpContext.httpParser hL).feed context rest =
        (context', HttpContext.verdictOf result consumed) := by
      show context.feed L rest = _
      simp only [HttpContext.feed, hparse]
    have hreset : context'.reset L = .create L := HttpContext.reset_eq hL context'
    cases result with
    | needMoreData =>
      -- all bytes are taken: the loop ends at its next test
      obtain rfl := HttpContext.parse_needMoreData hL hreads.mid hrest hparse
      refine .more (hreads.more hrest hfeed) fun fuel => ?_
      rw [run_advance (by exact HttpPhase.loop_ne_done _)]
      simp only [OnMessage.advance, if_neg hrest, OnMessage.parseNext, hparse,
        if_neg (Nat.pos_iff_ne_zero.mp hpos), List.drop_length, Option.toList_none, List.append_nil]
      rw [run_advance (by exact HttpPhase.loop_ne_done _)]
      simp only [OnMessage.advance, if_true, Option.toList_none, List.append_nil]
      exact run_done rfl fuel
    | rejected =>
      refine .rejected ((reply badRequest t).1.length + 2) (hreads.failed hrest hfeed) fun fuel => ?_
      rw [← Nat.add_assoc, run_advance (by exact HttpPhase.loop_ne_done _)]
      simp only [OnMessage.advance, if_neg hrest, OnMessage.parseNext, hparse, Option.toList_none,
        List.append_nil]
      rw [← hreset]
      exact run_rejected fuel
    | complete =>
      obtain ⟨hpos', hle⟩ := (HttpContext.httpParser hL).bounds hreads.mid hfeed
      refine @Passes.complete _ _ _ _ _ _ _ _ _ _ _ _ _ _ _ context'.request (rest.drop consumed)
        ((reply (handler context'.request w).1 t).1.length + 2) ?_ (hreads.complete hfeed) fun fuel => ?_
      · rw [List.length_drop]
        omega
      · rw [← Nat.add_assoc, run_advance (by exact HttpPhase.loop_ne_done _)]
        simp only [OnMessage.advance, if_neg hrest, OnMessage.parseNext, hparse, Option.toList_none,
          List.append_nil]
        rw [← hreset]
        exact run_reply fuel

/-- **The loop ends on every payload**, whatever the replies do and whenever the connection goes,
in the middle of a message; and what every reply keeps, a run keeps. -/
theorem run_ends (hL : L.Incremental) {I : List HttpOutcome → ω → τ → Prop}
    (hdispatch : ∀ {log w t} request, I log w t →
      I (log ++ [.dispatched request]) (handler request w).2 (reply (handler request w).1 t).2)
    (hreject : ∀ {log w t}, I log w t → I (log ++ [.rejected]) w (reply badRequest t).2) (rest : Bytes) :
    ∀ {w : ω} {t : τ} {log : List HttpOutcome} {context : HttpContext P} {left : Bytes}
      (issued : List Request), (HttpContext.httpParser hL).Reads context left → I log w t →
      ∃ s n left', (∀ fuel ≥ n,
          run L handler reply net fuel ⟨context, w, t, log, .loop rest⟩ issued = some s) ∧
        (HttpContext.httpParser hL).Reads s.context left' ∧ I s.log s.world s.tls := by
  induction hlen : rest.length using Nat.strongRecOn generalizing rest with
  | _ len ih =>
    intro w t log context left issued hreads hI
    by_cases hrest : rest = []
    · subst hrest
      refine ⟨⟨context, w, t, log, issued⟩, 1, left, fun fuel hfuel => ?_, hreads, hI⟩
      obtain ⟨f, rfl⟩ : ∃ f, fuel = f + 1 := ⟨fuel - 1, by omega⟩
      rw [run_advance (by exact HttpPhase.loop_ne_done _)]
      simp only [OnMessage.advance, if_true, Option.toList_none, List.append_nil]
      exact run_done rfl f
    · cases @passes _ _ _ _ handler reply net hL _ _ _ hreads hrest w t log issued with
      | more hreads' hrun =>
        refine ⟨⟨_, w, t, log, issued⟩, 2, _, fun fuel hfuel => ?_, hreads', hI⟩
        obtain ⟨f, rfl⟩ : ∃ f, fuel = f + 2 := ⟨fuel - 2, by omega⟩
        exact hrun f
      | rejected k _ hrun =>
        refine ⟨⟨.create L, w, (reply badRequest t).2, log ++ [.rejected],
          issued ++ (reply badRequest t).1⟩, k, _, fun fuel hfuel => ?_, .init, hreject hI⟩
        obtain ⟨f, rfl⟩ : ∃ f, fuel = f + k := ⟨fuel - k, by omega⟩
        exact hrun f
      | @complete request rest' k hlt _ hrun =>
        have hI' := hdispatch request hI
        cases hopen : isOpen net (issued ++ (reply (handler request w).1 t).1) with
        | false =>
          simp only [hopen, Bool.false_eq_true, if_false] at hrun
          refine ⟨⟨.create L, (handler request w).2, (reply (handler request w).1 t).2,
            log ++ [.dispatched request], issued ++ (reply (handler request w).1 t).1⟩, k, _,
            fun fuel hfuel => ?_, .init, hI'⟩
          obtain ⟨f, rfl⟩ : ∃ f, fuel = f + k := ⟨fuel - k, by omega⟩
          rw [hrun f]
          exact run_done rfl f
        | true =>
          simp only [hopen, if_true] at hrun
          obtain ⟨s, n, left', hs, hreads', hI''⟩ := ih _ (hlen ▸ hlt) rest' rfl
            (issued ++ (reply (handler request w).1 t).1) .init hI'
          refine ⟨s, n + k, left', fun fuel hfuel => ?_, hreads', hI''⟩
          obtain ⟨f, hf, rfl⟩ : ∃ f ≥ n, fuel = f + k := ⟨fuel - k, by omega, by omega⟩
          rw [hrun f]
          exact hs f hf

end HttpSession

end Tudou
