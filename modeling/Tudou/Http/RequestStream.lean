import Tudou.Http.RequestLoop

/-!
# What a stream of requests leads to

The request loop of `HttpServer::on_message` over a whole connection: what is dispatched depends on
the stream, not on the payloads it comes in.

* `follow`, `leadsTo` — what is done with a stream of requests, up to a reply that closes.
* `Replies` — what the replies make of an open connection; `log_run` — **what one payload adds**.
* `Follows` — a connection that has done what its stream leads to; every payload continues it.
* `requests_chunk_invariant` — **without TLS, the dispatched requests are those of the stream.**
* `scripted` — a small llhttp for examples.
-/

namespace Tudou

open Framing

namespace HttpSession

variable {P ω τ α : Type*} {L : Llhttp P} {handler : HttpHandler ω} {reply : HttpReply τ}
  {net : List Request → Bool} {after : HttpResponse → α → Option α}

/-- Nothing but `send`s. -/
def OnlySends (issued : List Request) : Prop := ∀ r ∈ issued, ∃ msg, r = .send msg

theorem OnlySends.append {issued more : List Request} (h : OnlySends issued) (h' : OnlySends more) :
    OnlySends (issued ++ more) := by
  intro r hr
  rcases List.mem_append.mp hr with hr | hr
  · exact h r hr
  · exact h' r hr

theorem OnlySends.isOpen {issued : List Request} (h : OnlySends issued)
    (hnet : ∀ issued, OnlySends issued → net issued = true) : isOpen net issued = true := by
  have hclose : .forceClose ∉ issued := by
    intro hmem
    obtain ⟨msg, hmsg⟩ := h _ hmem
    cases hmsg
  simp [HttpSession.isOpen, hnet issued h, hclose]

/-! ## What a stream leads to -/

/-- What is done with requests, one after the other, and where that ends if the connection is still
open then: a reply in the state `a` leaves it in the state `after response a`, or closes.  What is
`left` of the stream is the beginning of a request, or malformed. -/
def follow (handler : HttpHandler ω) (after : HttpResponse → α → Option α) (left : Option Bytes) :
    ω → α → List HttpRequest → List HttpOutcome × Option (ω × α × Bytes)
  | w, a, [] =>
    match left with
    | some left => ([], some (w, a, left))
    | none => ([.rejected], none)
  | w, a, request :: requests =>
    match after (handler request w).1 a with
    | none => ([.dispatched request], none)
    | some a =>
      let (log, last) := follow handler after left (handler request w).2 a requests
      (.dispatched request :: log, last)

/-- What a stream leads to. -/
def leadsTo (hL : L.Incremental) (handler : HttpHandler ω) (after : HttpResponse → α → Option α)
    (w : ω) (a : α) (stream : Bytes) : List HttpOutcome × Option (ω × α × Bytes) :=
  follow handler after ((requests hL).split stream).2 w a ((requests hL).split stream).1

theorem follow_left {left : Option Bytes} {w w' : ω} {a a' : α} {batch : List HttpRequest}
    {left' : Bytes} (h : (follow handler after left w a batch).2 = some (w', a', left')) :
    left = some left' := by
  induction batch generalizing w a with
  | nil =>
    cases left with
    | none => cases h
    | some left =>
      cases h
      rfl
  | cons request batch ih =>
    rw [follow] at h
    cases hafter : after (handler request w).1 a with
    | none =>
      simp only [hafter] at h
      cases h
    | some a₁ =>
      simp only [hafter] at h
      exact ih h

theorem follow_append {left' : Bytes} {w w' : ω} {a a' : α} {batch : List HttpRequest}
    (h : (follow handler after (some left') w a batch).2 = some (w', a', left')) (left : Option Bytes)
    (more : List HttpRequest) :
    follow handler after left w a (batch ++ more) =
      ((follow handler after (some left') w a batch).1 ++ (follow handler after left w' a' more).1,
        (follow handler after left w' a' more).2) := by
  induction batch generalizing w a with
  | nil =>
    cases h
    rfl
  | cons request batch ih =>
    rw [List.cons_append, follow, follow]
    rw [follow] at h
    cases hafter : after (handler request w).1 a with
    | none =>
      simp only [hafter] at h
      cases h
    | some a₁ =>
      simp only [hafter] at h
      simp only [ih h, List.cons_append]

/-- Nothing is done after a reply that closes. -/
theorem follow_append_of_closed {left' : Bytes} {w : ω} {a : α} {batch : List HttpRequest}
    (h : (follow handler after (some left') w a batch).2 = none) (left : Option Bytes)
    (more : List HttpRequest) :
    follow handler after left w a (batch ++ more) = follow handler after (some left') w a batch := by
  induction batch generalizing w a with
  | nil => cases h
  | cons request batch ih =>
    rw [List.cons_append, follow, follow]
    rw [follow] at h
    cases hafter : after (handler request w).1 a with
    | none => rfl
    | some a₁ =>
      simp only [hafter] at h
      simp only [ih h]

/-- **More of the stream**, while the connection is open. -/
theorem leadsTo_append {hL : L.Incremental} {w w' : ω} {a a' : α} {received left : Bytes}
    (h : (leadsTo hL handler after w a received).2 = some (w', a', left)) (data : Bytes) :
    leadsTo hL handler after w a (received ++ data) =
      ((leadsTo hL handler after w a received).1 ++ (leadsTo hL handler after w' a' (left ++ data)).1,
        (leadsTo hL handler after w' a' (left ++ data)).2) := by
  have hleft := follow_left h
  unfold leadsTo at h ⊢
  rw [hleft] at h
  rw [Splitter.split_append data hleft, hleft]
  exact follow_append h _ _

/-- Nothing counts once the connection is closed. -/
theorem leadsTo_append_of_closed {hL : L.Incremental} {w : ω} {a : α} {received : Bytes}
    (h : (leadsTo hL handler after w a received).2 = none) (data : Bytes) :
    leadsTo hL handler after w a (received ++ data) = leadsTo hL handler after w a received := by
  unfold leadsTo at h ⊢
  cases hleft : ((requests hL).split received).2 with
  | none => rw [Splitter.split_append_of_corrupt data hleft, hleft]
  | some left =>
    rw [hleft] at h
    rw [Splitter.split_append data hleft]
    exact follow_append_of_closed h _ _

/-! ## One payload -/

/-- **What the replies make of an open connection** whose TLS part is in a state `T a`: responses
become `send`s, and the connection closes where `after` says so, and after a malformed message. -/
structure Replies (handler : HttpHandler ω) (reply : HttpReply τ) (T : α → τ → Prop)
    (after : HttpResponse → α → Option α) : Prop where
  sends : ∀ {request w a a' t}, T a t → after (handler request w).1 a = some a' →
    OnlySends (reply (handler request w).1 t).1 ∧ T a' (reply (handler request w).1 t).2
  closes : ∀ {request w a t}, T a t → after (handler request w).1 a = none →
    .forceClose ∈ (reply (handler request w).1 t).1
  rejects : ∀ {a t}, T a t → .forceClose ∈ (reply badRequest t).1

/-- Where the connection stands when `on_message` returns. -/
def Settled (hL : L.Incremental) (T : α → τ → Prop) (s : HttpSession P ω τ) :
    Option (ω × α × Bytes) → Prop
  | some (w, a, left) =>
    (HttpContext.httpParser hL).Reads s.context left ∧ OnlySends s.issued ∧ s.world = w ∧ T a s.tls
  | none => .forceClose ∈ s.issued

theorem not_isOpen {issued : List Request} (h : .forceClose ∈ issued) : isOpen net issued = false := by
  simp [isOpen, h]

/-- **What one payload adds**, and that the loop ends on it: with `left` read before, the payload
`rest` is dispatched as the stream goes on. -/
theorem log_run (hL : L.Incremental) {T : α → τ → Prop} (hreply : Replies handler reply T after)
    (hnet : ∀ issued, OnlySends issued → net issued = true) (rest : Bytes) :
    ∀ (w : ω) (log : List HttpOutcome) {a : α} {context : HttpContext P} {left : Bytes} {t : τ}
      {issued : List Request}, (HttpContext.httpParser hL).Reads context left →
      OnlySends issued → T a t →
      ∃ s n, (∀ fuel ≥ n, run L handler reply net fuel ⟨context, w, t, log, .loop rest⟩ issued = some s) ∧
        s.log = log ++ (leadsTo hL handler after w a (left ++ rest)).1 ∧
        Settled hL T s (leadsTo hL handler after w a (left ++ rest)).2 := by
  induction hlen : rest.length using Nat.strongRecOn generalizing rest with
  | _ len ih =>
    intro w log a context left t issued hreads hissued ht
    by_cases hrest : rest = []
    · subst hrest
      have hsplit : (requests hL).split (left ++ []) = ([], some left) := by
        rw [List.append_nil]
        exact hreads.split
      rw [leadsTo, hsplit, follow]
      refine ⟨⟨context, w, t, log, issued⟩, 1, fun fuel hfuel => ?_, (List.append_nil log).symm,
        hreads, hissued, rfl, ht⟩
      obtain ⟨f, rfl⟩ : ∃ f, fuel = f + 1 := ⟨fuel - 1, by omega⟩
      rw [run_advance (by exact HttpPhase.loop_ne_done _)]
      simp only [OnMessage.advance, if_true, Option.toList_none, List.append_nil]
      exact run_done rfl f
    · cases @passes _ _ _ _ handler reply net hL _ _ _ hreads hrest w t log issued with
      | @more context' hreads' hrun =>
        have hsplit : (requests hL).split (left ++ rest) = ([], some (left ++ rest)) := hreads'.split
        rw [leadsTo, hsplit, follow]
        refine ⟨⟨context', w, t, log, issued⟩, 2, fun fuel hfuel => ?_, (List.append_nil log).symm,
          hreads', hissued, rfl, ht⟩
        obtain ⟨f, rfl⟩ : ∃ f, fuel = f + 2 := ⟨fuel - 2, by omega⟩
        exact hrun f
      | rejected k hsplit hrun =>
        rw [leadsTo, hsplit, follow]
        refine ⟨⟨.create L, w, (reply badRequest t).2, log ++ [.rejected],
          issued ++ (reply badRequest t).1⟩, k, fun fuel hfuel => ?_, rfl,
          List.mem_append_right issued (hreply.rejects ht)⟩
        obtain ⟨f, rfl⟩ : ∃ f, fuel = f + k := ⟨fuel - k, by omega⟩
        exact hrun f
      | @complete request rest' k hlt hsplit hrun =>
        rw [leadsTo, hsplit, follow]
        cases hafter : after (handler request w).1 a with
        | none =>
          -- the reply closes: what is behind the request is dropped
          have hclose := List.mem_append_right issued (hreply.closes ht hafter)
          rw [not_isOpen hclose, if_neg Bool.false_ne_true] at hrun
          refine ⟨⟨.create L, (handler request w).2, (reply (handler request w).1 t).2,
            log ++ [.dispatched request], issued ++ (reply (handler request w).1 t).1⟩, k,
            fun fuel hfuel => ?_, rfl, hclose⟩
          obtain ⟨f, rfl⟩ : ∃ f, fuel = f + k := ⟨fuel - k, by omega⟩
          rw [hrun f]
          exact run_done rfl f
        | some a' =>
          obtain ⟨hsends, ht'⟩ := hreply.sends ht hafter
          have hissued' := hissued.append hsends
          rw [hissued'.isOpen hnet, if_pos rfl] at hrun
          obtain ⟨s, n, hs, hlog, hsettled⟩ := ih _ (hlen ▸ hlt) rest' rfl (handler request w).2
            (log ++ [.dispatched request]) .init hissued' ht'
          refine ⟨s, n + k, fun fuel hfuel => ?_, ?_, hsettled⟩
          · obtain ⟨f, hf, rfl⟩ : ∃ f ≥ n, fuel = f + k := ⟨fuel - k, by omega, by omega⟩
            rw [hrun f]
            exact hs f hf
          · rw [hlog, List.append_assoc]
            rfl

/-! ## A whole connection -/

/-- What was done is what the stream `received` leads to. -/
structure Follows (hL : L.Incremental) (handler : HttpHandler ω) (after : HttpResponse → α → Option α)
    (T : α → τ → Prop) (w : ω) (a : α) (s : HttpSession P ω τ) (received : Bytes) : Prop where
  log : s.log = (leadsTo hL handler after w a received).1
  settled : Settled hL T s (leadsTo hL handler after w a received).2

theorem leadsTo_nil {hL : L.Incremental} (w : ω) (a : α) :
    leadsTo hL handler after w a [] = ([], some (w, a, [])) := by
  have hsplit : (requests hL).split [] = ([], some []) := Resumable.Reads.init.split
  rw [leadsTo, hsplit, follow]

theorem Follows.create (hL : L.Incremental) {T : α → τ → Prop} (w : ω) {a : α} {t : τ} (ht : T a t) :
    Follows hL handler after T w a (create L w t) [] := by
  refine ⟨?_, ?_⟩
  · rw [leadsTo_nil]
    rfl
  · rw [leadsTo_nil]
    exact ⟨.init, nofun, rfl, ht⟩

variable {hL : L.Incremental} {T : α → τ → Prop} {w : ω} {a : α} {s : HttpSession P ω τ}
  {received : Bytes}

/-- Where the stream closes the connection, it is closed. -/
theorem Follows.closed (h : Follows hL handler after T w a s received)
    (hleft : (leadsTo hL handler after w a received).2 = none) : isOpen net s.issued = false := by
  have hsettled := h.settled
  rw [hleft] at hsettled
  exact not_isOpen hsettled

/-- Elsewhere it is open. -/
theorem Follows.isOpen (h : Follows hL handler after T w a s received)
    (hnet : ∀ issued, OnlySends issued → net issued = true)
    (hleft : (leadsTo hL handler after w a received).2 ≠ none) : isOpen net s.issued = true := by
  obtain ⟨⟨w', a', left⟩, hopen⟩ := Option.ne_none_iff_exists'.mp hleft
  have hsettled := h.settled
  rw [hopen] at hsettled
  exact hsettled.2.1.isOpen hnet

/-- Nothing on a closed connection is looked at. -/
theorem Follows.append_of_closed (h : Follows hL handler after T w a s received)
    (hleft : (leadsTo hL handler after w a received).2 = none) (data : Bytes) :
    Follows hL handler after T w a s (received ++ data) := by
  refine ⟨?_, ?_⟩
  · rw [leadsTo_append_of_closed hleft]
    exact h.log
  · rw [leadsTo_append_of_closed hleft]
    exact h.settled

/-- The open connection may change apart from the request loop. -/
theorem Follows.map {T' : α → τ → Prop} {s' : HttpSession P ω τ}
    (h : Follows hL handler after T w a s received)
    (hleft : (leadsTo hL handler after w a received).2 ≠ none) (hcontext : s'.context = s.context)
    (hworld : s'.world = s.world) (hlog : s'.log = s.log)
    (hissued : OnlySends s.issued → OnlySends s'.issued) (htls : ∀ {a}, T a s.tls → T' a s'.tls) :
    Follows hL handler after T' w a s' received := by
  obtain ⟨⟨w', a', left⟩, hopen⟩ := Option.ne_none_iff_exists'.mp hleft
  have hsettled := h.settled
  rw [hopen] at hsettled
  obtain ⟨hreads, hsends, hw, ht⟩ := hsettled
  refine ⟨hlog.trans h.log, ?_⟩
  rw [hopen]
  exact ⟨hcontext ▸ hreads, hissued hsends, hworld.trans hw, htls ht⟩

/-- **One payload continues the stream.** -/
theorem Follows.serve (h : Follows hL handler after T w a s received)
    (hreply : Replies handler reply T after) (hnet : ∀ issued, OnlySends issued → net issued = true)
    (hleft : (leadsTo hL handler after w a received).2 ≠ none) (payload : Bytes) :
    ∃ s' n, (∀ fuel ≥ n, s.serve L handler reply net fuel payload = some s') ∧
      Follows hL handler after T w a s' (received ++ payload) := by
  obtain ⟨⟨w', a', left⟩, hopen⟩ := Option.ne_none_iff_exists'.mp hleft
  have hsettled := h.settled
  rw [hopen] at hsettled
  obtain ⟨hreads, hissued, hworld, ht⟩ := hsettled
  obtain ⟨s', n, hrun, hlog, hsettled'⟩ := log_run hL hreply hnet payload s.world s.log hreads hissued ht
  rw [hworld] at hlog hsettled'
  refine ⟨s', n, hrun, ?_, ?_⟩
  · rw [leadsTo_append hopen, hlog, h.log]
  · rw [leadsTo_append hopen]
    exact hsettled'

theorem Follows.receiveAll (h : Follows hL handler after T w a s received)
    (hreply : Replies handler reply T after) (hnet : ∀ issued, OnlySends issued → net issued = true)
    (payloads : List Bytes) :
    ∃ s' n, (∀ fuel ≥ n, s.receiveAll L handler reply net fuel payloads = some s') ∧
      Follows hL handler after T w a s' (received ++ payloads.flatten) := by
  induction payloads generalizing s received with
  | nil => exact ⟨s, 0, fun _ _ => rfl, by rwa [List.flatten_nil, List.append_nil]⟩
  | cons data payloads ih =>
    have hone : ∃ s₁ n, (∀ fuel ≥ n, s.onMessage L handler reply net fuel data = some s₁) ∧
        Follows hL handler after T w a s₁ (received ++ data) := by
      by_cases hdata : data = []
      · rw [hdata, List.append_nil]
        exact ⟨s, 0, fun _ _ => if_pos rfl, h⟩
      by_cases hleft : (leadsTo hL handler after w a received).2 = none
      · -- the connection was closed before, and its state is gone
        refine ⟨s, 0, fun _ _ => ?_, h.append_of_closed hleft data⟩
        simp only [HttpSession.onMessage, if_neg hdata, h.closed hleft, Bool.false_eq_true, if_false]
      · obtain ⟨s₁, n, hrun, hfollows⟩ := h.serve hreply hnet hleft data
        refine ⟨s₁, n, fun fuel hfuel => ?_, hfollows⟩
        simp only [HttpSession.onMessage, if_neg hdata, h.isOpen hnet hleft, if_true]
        exact hrun fuel hfuel
    obtain ⟨s₁, n₁, hs₁, hfollows⟩ := hone
    obtain ⟨s', n, hs', hfollows'⟩ := ih hfollows
    refine ⟨s', max n₁ n, fun fuel hfuel => ?_, ?_⟩
    · simp only [HttpSession.receiveAll, hs₁ fuel (by omega)]
      exact hs' fuel (by omega)
    · rw [List.flatten_cons, ← List.append_assoc]
      exact hfollows'

/-! ## Without TLS -/

/-- What is done with a stream: dispatch its requests, and reject it where it is malformed. -/
def outcomes (split : List HttpRequest × Option Bytes) : List HttpOutcome :=
  split.1.map .dispatched ++ if split.2 = none then [.rejected] else []

/-- Replies that never close lead through the whole stream. -/
theorem follow_some (left : Option Bytes) (w : ω) (batch : List HttpRequest) :
    (follow handler (fun _ _ => some ()) left w () batch).1 = outcomes (batch, left) := by
  induction batch generalizing w with
  | nil => cases left <;> rfl
  | cons request batch ih =>
    simp only [follow, ih]
    rfl

/-- A handler whose responses come from memory and leave the connection open. -/
def AnswersFromMemory (handler : HttpHandler ω) : Prop :=
  ∀ request w, (handler request w).1.validFile = none ∧ (handler request w).1.closeConnection = false

theorem AnswersFromMemory.replies (h : AnswersFromMemory handler) :
    Replies handler plainReply (fun _ _ => True) fun _ _ => some () where
  sends := by
    intro request w _ _ _ _ _
    refine ⟨fun r hr => ?_, trivial⟩
    obtain ⟨hfile, hclose⟩ := h request w
    simp only [plainReply, HttpResponse.sendHttpResponse, HttpResponse.sendPlainResponse,
      HttpResponse.withContentLength_validFile, hfile, HttpResponse.withContentLength_closeConnection,
      hclose, Bool.false_eq_true, if_false, List.mem_singleton] at hr
    exact ⟨_, hr⟩
  closes _ := nofun
  rejects _ := List.mem_cons_of_mem _ List.mem_cons_self

/-- **What is dispatched is what the stream says**: however the stream is cut into payloads,
`on_message` returns from each of them, and what it has dispatched, and whether it has rejected
after that, are those of the stream. -/
theorem requests_chunk_invariant (hL : L.Incremental) (hhandler : AnswersFromMemory handler)
    (hnet : ∀ issued, OnlySends issued → net issued = true) (w : ω) (payloads : List Bytes) :
    ∃ s n, (∀ fuel ≥ n,
        (create L w ()).receiveAll L handler plainReply net fuel payloads = some s) ∧
      s.log = outcomes ((requests hL).split payloads.flatten) := by
  obtain ⟨s, n, hs, hfollows⟩ :=
    (Follows.create hL w trivial).receiveAll hhandler.replies hnet payloads
  refine ⟨s, n, hs, ?_⟩
  rw [hfollows.log, List.nil_append]
  exact follow_some _ w _

/-! ## A parser of one fixed request -/

/-- The bytes of a request, each with the callbacks made on it. -/
abbrev Script := List (Byte × List LlhttpEvent)

/-- Take the bytes off the script; any other byte is an error. -/
def scriptExecute : Script → Bytes → Execution Script
  | script, [] => ⟨script, [], .ok, none⟩
  | [], _ :: _ => ⟨[], [], .error 1, some 0⟩
  | (b, events) :: script, c :: data =>
    if c = b then
      if script = [] then ⟨[], events, .paused, some 1⟩
      else Execution.after ⟨script, events, .ok, none⟩ 1 (scriptExecute script data)
    else ⟨(b, events) :: script, [], .error 1, some 0⟩

/-- A request whose last byte, and no other, completes it. -/
inductive Complete : Script → Prop
  | last (b : Byte) (before : List LlhttpEvent) (major minor : Nat) :
    Complete [(b, before ++ [.messageComplete major minor])]
  | more {b : Byte} {events : List LlhttpEvent} {script : Script} :
    (∀ major minor, .messageComplete major minor ∉ events) → Complete script →
    Complete ((b, events) :: script)

/-- llhttp, for inputs that repeat one request. -/
def scripted (script : Script) : Llhttp Script := ⟨script, scriptExecute, fun _ => script, id⟩

/-- What one execution does: it goes on, ends behind the last byte, or fails. -/
inductive ScriptEnds (script : Script) (xs : Bytes) (e : Execution Script) : Prop
  | going : e.errno = .ok → Complete e.parser →
    (∀ major minor, .messageComplete major minor ∉ e.events) →
    (∀ ys, scriptExecute script (xs ++ ys) = e.after xs.length (scriptExecute e.parser ys)) →
    ScriptEnds script xs e
  | ended {before : List LlhttpEvent} {major minor consumed : Nat} : e.errno = .paused →
    e.events = before ++ [.messageComplete major minor] → e.errorPos = some consumed →
    0 < consumed ∧ consumed ≤ xs.length → (∀ ys, scriptExecute script (xs ++ ys) = e) →
    ScriptEnds script xs e
  | failed {code : Nat} : e.errno = .error code → (∀ ys, scriptExecute script (xs ++ ys) = e) →
    ScriptEnds script xs e

/-- A byte that is taken, and the rest. -/
theorem ScriptEnds.cons {script : Script} {b : Byte} {events : List LlhttpEvent} {xs : Bytes}
    (hscript : script ≠ []) (hevents : ∀ major minor, .messageComplete major minor ∉ events)
    (h : ScriptEnds script xs (scriptExecute script xs)) :
    ScriptEnds ((b, events) :: script) (b :: xs)
      (Execution.after ⟨script, events, .ok, none⟩ 1 (scriptExecute script xs)) := by
  have hstep : ∀ ys, scriptExecute ((b, events) :: script) (b :: xs ++ ys) =
      Execution.after ⟨script, events, .ok, none⟩ 1 (scriptExecute script (xs ++ ys)) := by
    intro ys
    simp only [List.cons_append, scriptExecute, if_true, if_neg hscript]
  cases h with
  | going hok hrest hincomplete happend =>
    refine .going hok hrest ?_ ?_
    · intro major minor hmem
      rcases List.mem_append.mp hmem with hmem | hmem
      · exact hevents major minor hmem
      · exact hincomplete major minor hmem
    · intro ys
      rw [hstep, happend]
      simp only [Execution.after, List.append_assoc, Option.map_map, List.length_cons]
      congr 2
      funext n
      simp only [Function.comp_apply]
      omega
  | @ended before major minor consumed hpaused hlast hpos hbounds happend =>
    refine @ended _ _ _ (events ++ before) major minor (1 + consumed) hpaused ?_ ?_ ?_ ?_
    · simp only [Execution.after, hlast, List.append_assoc]
    · simp only [Execution.after, hpos, Option.map_some]
    · rw [List.length_cons]
      omega
    · intro ys
      rw [hstep, happend]
  | failed herror happend =>
    refine .failed herror fun ys => ?_
    rw [hstep, happend]

theorem Complete.execute {script : Script} (h : Complete script) (xs : Bytes) :
    ScriptEnds script xs (scriptExecute script xs) := by
  induction xs generalizing script with
  | nil =>
    have hnil : scriptExecute script [] = ⟨script, [], .ok, none⟩ := by simp only [scriptExecute]
    rw [hnil]
    refine .going rfl h (fun _ _ => List.not_mem_nil) fun ys => ?_
    simp [Execution.after]
  | cons c xs ih =>
    cases h with
    | last b before major minor =>
      by_cases hc : c = b
      · subst hc
        have hlast : ∀ ys, scriptExecute [(c, before ++ [.messageComplete major minor])] (c :: ys) =
            ⟨[], before ++ [.messageComplete major minor], .paused, some 1⟩ := by
          intro ys
          simp only [scriptExecute, if_true]
        rw [hlast]
        exact .ended rfl rfl rfl ⟨Nat.one_pos, by simp⟩ fun ys => hlast (xs ++ ys)
      · have herror : ∀ ys, scriptExecute [(b, before ++ [.messageComplete major minor])] (c :: ys) =
            ⟨[(b, before ++ [.messageComplete major minor])], [], .error 1, some 0⟩ := by
          intro ys
          simp only [scriptExecute, if_neg hc]
        rw [herror]
        exact .failed rfl fun ys => herror (xs ++ ys)
    | @more b events script hevents hrest =>
      have hscript : script ≠ [] := by
        rintro rfl
        cases hrest
      by_cases hc : c = b
      · subst hc
        simp only [scriptExecute, if_true, if_neg hscript]
        exact .cons hscript hevents (ih hrest)
      · have herror : ∀ ys, scriptExecute ((b, events) :: script) (c :: ys) =
            ⟨(b, events) :: script, [], .error 1, some 0⟩ := by
          intro ys
          simp only [scriptExecute, if_neg hc]
        rw [herror]
        exact .failed rfl fun ys => herror (xs ++ ys)

theorem Complete.mid {script p : Script} (h : Complete script) (hp : (scripted script).Mid p) :
    Complete p := by
  induction hp with
  | init => exact h
  | @execute p data _ _ hok ih =>
    cases ih.execute data with
    | going _ hrest _ _ => exact hrest
    | ended hpaused => exact absurd (hok.symm.trans hpaused) nofun
    | failed herror => exact absurd (hok.symm.trans herror) nofun

theorem Complete.incremental {script : Script} (h : Complete script) : (scripted script).Incremental where
  resume_reset _ := rfl
  ok_append xs ys hp _ _ hok := by
    cases (h.mid hp).execute xs with
    | going _ _ _ happend => exact .of_eq (happend ys)
    | ended hpaused => exact absurd (hok.symm.trans hpaused) nofun
    | failed herror => exact absurd (hok.symm.trans herror) nofun
  stop_append {p} xs ys hp _ hstop := by
    have hsame : scriptExecute p (xs ++ ys) = scriptExecute p xs := by
      cases (h.mid hp).execute xs with
      | going hok => exact absurd hok hstop
      | ended _ _ _ _ happend => exact happend ys
      | failed _ happend => exact happend ys
    exact .of_eq hsame
  ok_incomplete xs hp hok := by
    cases (h.mid hp).execute xs with
    | going _ _ hincomplete _ => exact hincomplete
    | ended hpaused => exact absurd (hok.symm.trans hpaused) nofun
    | failed herror => exact absurd (hok.symm.trans herror) nofun
  paused_complete xs hp hpaused := by
    cases (h.mid hp).execute xs with
    | going hok => rcases hpaused with h' | h' <;> exact absurd (hok.symm.trans h') nofun
    | @ended before major minor consumed _ hlast hpos hbounds _ =>
      exact ⟨before, major, minor, consumed, hlast, hpos, hbounds⟩
    | failed herror => rcases hpaused with h' | h' <;> exact absurd (herror.symm.trans h') nofun

theorem Complete.append {body script : Script} (h : Complete script)
    (hbody : ∀ step ∈ body, ∀ major minor, .messageComplete major minor ∉ step.2) :
    Complete (body ++ script) := by
  induction body with
  | nil => exact h
  | cons step body ih =>
    refine .more (hbody step List.mem_cons_self) (ih fun step' hmem => ?_)
    exact hbody step' (List.mem_cons_of_mem step hmem)

/-- Bytes on which no callback is made. -/
def quiet (text : String) : Script := (Bytes.ofLiteral text).map fun b => (b, [])

/-- A request with one header, and the callbacks on its bytes. -/
def getRequest : Script :=
  (71, [.messageBegin]) :: quiet "ET " ++
    (47, [.span (.url (some (.ofLiteral "GET"))) [47]]) :: quiet " HTTP/1.1\r\n" ++
    (65, [.span .headerField [65]]) :: quiet ": " ++
    (98, [.span .headerValue [98]]) :: quiet "\r\n\r" ++ [(10, [.messageComplete 1 1])]

theorem complete_getRequest : Complete getRequest := by
  refine .append (.last 10 [] 1 1) ?_
  simp only [quiet, List.cons_append, List.mem_cons, List.mem_append, List.mem_map]
  rintro _
    (rfl | (((⟨_, -, rfl⟩ | rfl | ⟨_, -, rfl⟩) | rfl | ⟨_, -, rfl⟩) | rfl | ⟨_, -, rfl⟩)) <;> simp

/-- The request of `getRequest`. -/
def getRoot : HttpRequest where
  method := .ofLiteral "GET"
  url := [47]
  path := [47]
  version := .ofLiteral "HTTP/1.1"
  headers := [([65], [98])]

/-- A handler that answers every request from memory. -/
def sayOk : HttpHandler Unit := fun _ w => ({ body := .ofLiteral "ok" }, w)

/-- Two requests in three payloads, cut in the middle of a header. -/
theorem requests_chunk_invariant_pipelined :
    let stream := getRequest.map Prod.fst
    ∃ s n, (∀ fuel ≥ n, (create (scripted getRequest) () ()).receiveAll (scripted getRequest) sayOk
        plainReply (fun _ => true) fuel
        [stream.take 18, stream.drop 18 ++ stream.take 3, stream.drop 3] = some s) ∧
      s.log = [.dispatched getRoot, .dispatched getRoot] := by
  intro stream
  have hmemory : AnswersFromMemory sayOk := fun _ _ => ⟨rfl, rfl⟩
  obtain ⟨s, n, hs, hlog⟩ := requests_chunk_invariant complete_getRequest.incremental hmemory
    (fun _ _ => rfl) () [stream.take 18, stream.drop 18 ++ stream.take 3, stream.drop 3]
  refine ⟨s, n, hs, hlog.trans ?_⟩
  decide +kernel

end HttpSession

end Tudou
