import Tudou.Foundation.Linearization
import Tudou.Rpc.JsonRpcLink

/-!
# JSON-RPC calls are linearizable

* `Standing` — where the call of a client is: its request on the way, or its answer; `Sound` — the
  invariant, with the history of the calls that have taken effect.
* `calls_linearizable` — **one order of the calls of all clients serves every moment of a run: a call takes
  effect between the moments it begins and ends, and returns or throws what it would have where the
  handlers are**.
* `calls_come_back` — **no call waits for good**.
-/

namespace Tudou

open Transition Linearization

/-- A string literal of the source. -/
local instance : Coe String Bytes := ⟨asciiBytes⟩

/-! ## A request and its answer on the way -/

/-- What has come of a line and the newline after it is all of it once there is a newline. -/
theorem eq_of_newline_mem {part line : Bytes} (h : part <+: line ++ [newline]) (hline : newline ∉ line)
    (hmem : newline ∈ part) : part = line ++ [newline] := by
  rcases List.prefix_concat_iff.mp h with heq | hpart
  · exact heq
  · exact absurd (hpart.subset hmem) hline

theorem responseLine_append {line : Bytes} (hline : newline ∉ line) :
    JsonRpcClient.responseLine (line ++ [newline]) = line := by
  unfold JsonRpcClient.responseLine
  rw [List.idxOf_append, if_neg hline, List.idxOf_cons_self, Nat.zero_add, List.take_left]

namespace LineSession

variable {ω : Type*} {dispatch : Bytes → ω → Bytes × ω} {connBuf data : Bytes} {w : ω}

/-- Without a newline the data is buffered. -/
theorem onMessage_part (h : newline ∉ connBuf ++ data) :
    LineSession.onMessage dispatch ⟨connBuf, w, []⟩ data = ⟨connBuf ++ data, w, []⟩ := by
  unfold LineSession.onMessage
  split
  · rename_i hdata
    rw [hdata, List.append_nil]
  · rw [serveLines_eq]
    simp [completeLines, unfinished, List.splitOn_eq_singleton h]

/-- The data ends a line. -/
theorem onMessage_line {line : Bytes} (h : connBuf ++ data = line ++ [newline]) (hdata : data ≠ [])
    (hline : newline ∉ line) (hne : line ≠ []) (hreply : (dispatch line w).1 ≠ []) :
    LineSession.onMessage dispatch ⟨connBuf, w, []⟩ data =
      ⟨[], (dispatch line w).2, [(dispatch line w).1 ++ [newline]]⟩ := by
  have hsplit : (line ++ [newline]).splitOn newline = [line, []] := by
    rw [List.splitOn_append_cons_self_of_not_mem hline]
    rfl
  unfold LineSession.onMessage
  rw [if_neg hdata, serveLines_eq]
  simp [completeLines, unfinished, h, hsplit, answerLine, hne, hreply]

end LineSession

namespace JsonRpcRouter

variable {ω : Type*}

/-- The local call, with the outcome as `JsonRpcClient::call` reports it. -/
def callSeen (r : JsonRpcRouter ω) (call : Bytes × Json) (w : ω) : Except ClientException Json × ω :=
  (JsonRpcClient.seen (r.localCall call w).1, (r.localCall call w).2)

end JsonRpcRouter

namespace JsonRpcEnd

open JsonRpcClient (buildRequest seen)
open JsonRpcRouter (replyOf)

/-- **Where the call of a client is**, if those of `mine` have taken effect, with these outcomes. -/
inductive Standing (text : JsonText) (e : JsonRpcEnd) (mine : List (Bytes × Json))
    (outcomes : List (Except ClientException Json)) : Prop
  | idle (phase : e.phase = .idle) (toServer : e.toServer = []) (connBuf : e.connBuf = [])
      (toClient : e.toClient = []) (issued : e.issued = mine) (told : e.told = outcomes)
  /-- The request has not been dispatched. -/
  | asking (call : Bytes × Json) (unsent : Bytes) {seq : UInt64} {line : Bytes}
      (phase : e.phase = .writing seq (buildRequest call.1 call.2 seq) unsent ∧ unsent ≠ [] ∨
        e.phase = .reading seq (buildRequest call.1 call.2 seq) [] ∧ unsent = [])
      (request : text.LineOf (buildRequest call.1 call.2 seq) line)
      (stream : e.connBuf ++ (e.toServer ++ unsent) = line ++ [newline])
      (halfPack : newline ∉ e.connBuf)
      (toClient : e.toClient = []) (issued : e.issued = mine ++ [call]) (told : e.told = outcomes)
  /-- The answer is on its way. -/
  | answered {seq : UInt64} {request : Json} {responseBuf line : Bytes} {outcome : Except RpcFailure Json}
      (phase : e.phase = .reading seq request responseBuf)
      (reply : text.LineOf (replyOf (.number (.integer seq.toNat)) outcome) line)
      (toServer : e.toServer = []) (connBuf : e.connBuf = [])
      (stream : responseBuf ++ e.toClient = line ++ [newline]) (unread : newline ∉ responseBuf)
      (issued : e.issued = mine) (told : e.told ++ [seen outcome] = outcomes)

variable {text : JsonText} {what : JsonException → Bytes} {e e' : JsonRpcEnd} {mine : List (Bytes × Json)}
  {outcomes : List (Except ClientException Json)}

theorem Standing.connected : Standing text connected [] [] := .idle rfl rfl rfl rfl rfl rfl

/-- What a client is told is what its calls did. -/
theorem Standing.told_prefix (h : Standing text e mine outcomes) : e.told <+: outcomes := by
  cases h with
  | idle _ _ _ _ _ told | asking _ _ _ _ _ _ _ _ told => exact ⟨[], by rw [told, List.append_nil]⟩
  | answered _ _ _ _ _ _ _ told => exact ⟨_, told⟩

theorem issued_invoke {method : Bytes} {params : Json} (hs : e.invoke text method params = some e') :
    e.issued <+: e'.issued := by
  unfold JsonRpcEnd.invoke at hs
  split at hs
  · simp only at hs
    split at hs <;> cases hs <;> exact List.prefix_append _ _
  · cases hs

theorem issued_write {w : WriteResult} (hs : e.write w = some e') : e'.issued = e.issued := by
  unfold JsonRpcEnd.write at hs
  split at hs
  · simp only at hs
    split at hs
    · cases hs
      rfl
    · cases hs
      rfl
    · cases hs
      rfl
    · split at hs
      · cases hs
        rfl
      · cases hs
  · cases hs

theorem issued_read {r : ReadResult} (hs : e.read text what r = some e') : e'.issued = e.issued := by
  unfold JsonRpcEnd.read at hs
  split at hs
  · simp only at hs
    split at hs
    · cases hs
      rfl
    · cases hs
      rfl
    · cases hs
      rfl
    · split at hs
      · split at hs <;> cases hs <;> rfl
      · cases hs
  · cases hs

/-- A call begins. -/
theorem Standing.invoke (h : Standing text e mine outcomes) {method : Bytes} {params : Json}
    (hcarries : text.Carries (buildRequest method params e.client.nextSequenceId))
    (hs : e.invoke text method params = some e') : Standing text e' mine outcomes := by
  obtain ⟨line, hline⟩ := hcarries
  unfold JsonRpcEnd.invoke at hs
  split at hs
  · rename_i hidle
    simp only [hline.dump] at hs
    cases hs
    cases h with
    | idle phase toServer connBuf toClient issued told =>
      refine .asking (method, params) (line ++ [newline]) (.inl ⟨rfl, List.concat_ne_nil _ _⟩) hline ?_ ?_
        toClient ?_ told
      · simp only [toServer, connBuf, List.nil_append]
      · simp only [connBuf, List.not_mem_nil, not_false_eq_true]
      · simp only [issued]
    | asking call unsent phase =>
      rw [hidle] at phase
      rcases phase with ⟨hphase, -⟩ | ⟨hphase, -⟩ <;> cases hphase
    | answered phase =>
      rw [hidle] at phase
      cases phase
  · cases hs

/-- A `write` accepts some bytes. -/
theorem Standing.write (h : Standing text e mine outcomes) {w : WriteResult}
    (hw : w = .failed .eintr ∨ ∃ n, w = .accepted (n + 1)) (hs : e.write w = some e') :
    Standing text e' mine outcomes := by
  unfold JsonRpcEnd.write at hs
  split at hs
  · rename_i seq request unsent hphase
    cases h with
    | idle phase =>
      rw [hphase] at phase
      cases phase
    | answered phase =>
      rw [hphase] at phase
      cases phase
    | asking call unsent phase request stream halfPack toClient issued told =>
      rcases phase with ⟨heq, hne⟩ | ⟨heq, -⟩
      · rw [hphase] at heq
        cases heq
        rcases hw with rfl | ⟨n, rfl⟩
        · simp only at hs
          cases hs
          exact .asking call unsent (.inl ⟨hphase, hne⟩) request stream halfPack toClient issued told
        · simp only at hs
          split at hs
          · rename_i hle
            cases hs
            refine .asking call (unsent.drop (n + 1)) ?_ request ?_ halfPack toClient issued told
            · by_cases hall : n + 1 = unsent.length
              · right
                refine ⟨if_pos hall, ?_⟩
                rw [hall, List.drop_length]
              · left
                refine ⟨if_neg hall, ?_⟩
                apply List.ne_nil_of_length_pos
                rw [List.length_drop]
                omega
            · simp only [List.append_assoc, List.take_append_drop]
              exact stream
          · cases hs
      · rw [hphase] at heq
        cases heq
  · cases hs

/-- A `read` brings some bytes. -/
theorem Standing.read (h : Standing text e mine outcomes) {r : ReadResult}
    (hr : r = .failed .eintr ∨ ∃ bytes, bytes ≠ [] ∧ r = .data bytes)
    (hs : e.read text what r = some e') : Standing text e' mine outcomes := by
  unfold JsonRpcEnd.read at hs
  split at hs
  · rename_i seq request responseBuf hphase
    cases h with
    | idle phase =>
      rw [hphase] at phase
      cases phase
    | asking call unsent phase request stream halfPack toClient issued told =>
      rcases phase with ⟨heq, -⟩ | ⟨heq, hunsent⟩
      · rw [hphase] at heq
        cases heq
      · rw [hphase] at heq
        cases heq
        rcases hr with rfl | ⟨bytes, hbytes, rfl⟩
        · simp only at hs
          cases hs
          exact .asking call unsent (.inr ⟨hphase, hunsent⟩) request stream halfPack toClient issued told
        · -- nothing can have come yet
          cases bytes with
          | nil => exact absurd rfl hbytes
          | cons b bs =>
            simp only [toClient, List.prefix_nil, reduceCtorEq, if_false] at hs
    | answered phase reply toServer connBuf stream unread issued told =>
      rw [hphase] at phase
      cases phase
      rcases hr with rfl | ⟨bytes, hbytes, rfl⟩
      · simp only at hs
        cases hs
        exact .answered hphase reply toServer connBuf stream unread issued told
      · cases bytes with
        | nil => exact absurd rfl hbytes
        | cons b bs =>
          simp only at hs
          split at hs
          · rename_i hcome
            obtain ⟨later, hlater⟩ := hcome
            rw [← hlater, ← List.append_assoc] at stream
            have hdrop : e.toClient.drop (b :: bs).length = later := by
              rw [← hlater, List.drop_left]
            split at hs
            · rename_i hmem
              cases hs
              have hall := eq_of_newline_mem ⟨later, stream⟩ reply.oneLine hmem
              have hlast : later = [] := by
                rw [hall] at stream
                exact List.append_right_eq_self.mp stream
              refine .idle rfl toServer connBuf (hdrop.trans hlast) issued ?_
              rw [hall, responseLine_append reply.oneLine,
                JsonRpcClient.checkResponse_replyOf what reply.parse]
              simp only [told_finish]
              exact told
            · rename_i hmem
              cases hs
              refine .answered rfl reply toServer connBuf ?_ hmem issued told
              simp only [hdrop]
              exact stream
          · cases hs
  · cases hs

end JsonRpcEnd

namespace JsonRpcLink

open JsonRpcClient (buildRequest)
open JsonRpcRouter (callSeen replyOf)

variable {T ω : Type*} [DecidableEq T] {text : JsonText} {what : JsonException → Bytes}
  {r : JsonRpcRouter ω} {w₀ : ω} {s s' : JsonRpcLink T ω}

/-- **The invariant**: a history of the calls dispatched, and where each client's call is. -/
structure Sound (text : JsonText) (r : JsonRpcRouter ω) (w₀ : ω) (history : List (T × (Bytes × Json)))
    (s : JsonRpcLink T ω) : Prop where
  served : history.map Prod.fst = s.served
  linearizes : Linearizes (callSeen r) w₀ history (fun t => (s.ends t).issued) (fun t => (s.ends t).told)
    s.router
  standing : ∀ t, (s.ends t).Standing text (ofClient t history)
    (ofClient t (replay (callSeen r) history w₀).1)

/-- A step of one client's connection that dispatches nothing. -/
theorem Sound.of_end {history : List (T × (Bytes × Json))} (h : Sound text r w₀ history s)
    (hserved : s'.served = s.served) (hrouter : s'.router = s.router) {t : T}
    (hothers : ∀ t', t' ≠ t → s'.ends t' = s.ends t') (hissued : (s.ends t).issued <+: (s'.ends t).issued)
    (hself : (s'.ends t).Standing text (ofClient t history)
      (ofClient t (replay (callSeen r) history w₀).1)) : Sound text r w₀ history s' where
  served := h.served.trans hserved.symm
  linearizes := by
    rw [hrouter]
    refine (h.linearizes.invoke fun t' => ?_).answer fun t' => ?_
    · by_cases ht : t' = t
      · rw [ht]
        exact hissued
      · exact ⟨[], by rw [List.append_nil, hothers t' ht]⟩
    · by_cases ht : t' = t
      · subst ht
        exact hself.told_prefix
      · rw [hothers t' ht]
        exact h.linearizes.told t'
  standing := by
    intro t'
    by_cases ht : t' = t
    · rw [ht]
      exact hself
    · rw [hothers t' ht]
      exact h.standing t'

/-- A call of a client takes effect. -/
theorem Sound.takeEffect {history : List (T × (Bytes × Json))} (h : Sound text r w₀ history s) {t : T}
    {call : Bytes × Json} (hserved : s'.served = s.served ++ [t])
    (hrouter : s'.router = (r.localCall call s.router).2)
    (hothers : ∀ t', t' ≠ t → s'.ends t' = s.ends t')
    (hmine : (s'.ends t).issued = ofClient t history ++ [call])
    (hissued : (s'.ends t).issued = (s.ends t).issued) (htold : (s'.ends t).told = (s.ends t).told)
    (hself : ∀ outcomes, outcomes = ofClient t (replay (callSeen r) history w₀).1 ++
        [(callSeen r call s.router).1] →
      (s'.ends t).Standing text (ofClient t history ++ [call]) outcomes) :
    Sound text r w₀ (history ++ [(t, call)]) s' where
  served := by rw [List.map_append, h.served, hserved, List.map_singleton]
  linearizes := by
    have hsame : ∀ t', (s'.ends t').issued = (s.ends t').issued ∧ (s'.ends t').told = (s.ends t').told := by
      intro t'
      by_cases ht : t' = t
      · subst ht
        exact ⟨hissued, htold⟩
      · rw [hothers t' ht]
        exact ⟨rfl, rfl⟩
    have hnext : ofClient t history ++ [call] <+: (s.ends t).issued :=
      ⟨[], by rw [List.append_nil, ← hissued, hmine]⟩
    rw [hrouter]
    simp only [hsame]
    exact h.linearizes.takeEffect hnext
  standing := by
    intro t'
    by_cases ht : t = t'
    · subst ht
      rw [ofClient_append_self, h.linearizes.takeEffect_told]
      exact hself _ rfl
    · rw [ofClient_append_other ht, replay_append_singleton, ofClient_append_other ht,
        hothers t' (Ne.symm ht)]
      exact h.standing t'

omit [DecidableEq T] in
/-- A delivery that ends no line. -/
theorem session_part (text : JsonText) (r : JsonRpcRouter ω) (s : JsonRpcLink T ω) {t : T} {n : Nat}
    (h : newline ∉ (s.ends t).connBuf ++ (s.ends t).toServer.take n) :
    s.session text r t n = ⟨(s.ends t).connBuf ++ (s.ends t).toServer.take n, (s.router, []), []⟩ :=
  LineSession.onMessage_part h

omit [DecidableEq T] in
/-- A delivery that ends the request. -/
theorem session_line (s : JsonRpcLink T ω) {t : T} {n : Nat} {seq : UInt64} {call : Bytes × Json}
    {line reply : Bytes} (hn : (s.ends t).toServer.take n ≠ [])
    (hrequest : text.LineOf (buildRequest call.1 call.2 seq) line)
    (hall : (s.ends t).connBuf ++ (s.ends t).toServer.take n = line ++ [newline])
    (hreply : text.LineOf (replyOf (.number (.integer seq.toNat)) (r.localCall call s.router).1) reply) :
    s.session text r t n = ⟨[], ((r.localCall call s.router).2, [line]), [reply ++ [newline]]⟩ := by
  have hserve : r.serve text line s.router = (reply, (r.localCall call s.router).2) := by
    unfold JsonRpcRouter.serve
    rw [JsonRpcRouter.dispatch_request hrequest hreply.dump]
    rfl
  unfold session
  rw [LineSession.onMessage_line hall hn hrequest.oneLine hrequest.nonempty]
  · simp only [LineSession.logging, hserve, List.nil_append]
  · simp only [LineSession.logging, hserve]
    exact hreply.nonempty

/-- The server reads a part of a request, or the end of one. -/
theorem Sound.deliver (hcarried : r.Carried text) {history : List (T × (Bytes × Json))}
    (h : Sound text r w₀ history s) {t : T} {n : Nat} (hn : 0 < n ∧ n ≤ (s.ends t).toServer.length) :
    ∃ later, Sound text r w₀ (history ++ later) (s.onMessage text r t n) := by
  have hne : (s.ends t).toServer.take n ≠ [] := by
    apply List.ne_nil_of_length_pos
    rw [List.length_take]
    omega
  have hsome : (s.ends t).toServer ≠ [] := by
    intro hnil
    rw [hnil, List.length_nil] at hn
    omega
  have hothers : ∀ t', t' ≠ t → (s.onMessage text r t n).ends t' = s.ends t' :=
    fun t' ht => ends_setEnd_of_ne s ht _
  cases h.standing t with
  | idle _ toServer => exact absurd toServer hsome
  | answered _ _ toServer => exact absurd toServer hsome
  | @asking call unsent seq line phase request stream halfPack toClient issued told =>
    rw [← List.take_append_drop n (s.ends t).toServer, List.append_assoc, ← List.append_assoc] at stream
    by_cases hmem : newline ∈ (s.ends t).connBuf ++ (s.ends t).toServer.take n
    · -- the request is complete, and takes effect
      have hall := eq_of_newline_mem ⟨_, stream⟩ request.oneLine hmem
      rw [hall] at stream
      obtain ⟨hdrop, hunsent⟩ := List.append_eq_nil_iff.mp (List.append_right_eq_self.mp stream)
      obtain ⟨reply, hreply⟩ := hcarried call seq s.router ⟨line, request⟩
      have hsession := session_line s hne request hall hreply
      refine ⟨[(t, call)], h.takeEffect ?_ ?_ hothers ?_ ?_ ?_ ?_⟩
      · simp only [onMessage, hsession, List.map_singleton]
      · simp only [onMessage, hsession]
      · rw [ends_onMessage_self]
        exact issued
      · rw [ends_onMessage_self]
      · rw [ends_onMessage_self]
        rfl
      · intro outcomes htold
        rw [ends_onMessage_self, hsession]
        rcases phase with ⟨-, hleft⟩ | ⟨hphase, -⟩
        · exact absurd hunsent hleft
        · exact .answered hphase hreply hdrop rfl (by simp [toClient]) List.not_mem_nil issued
            (by rw [htold, ← told]; rfl)
    · have hsession := session_part text r s hmem
      refine ⟨[], ?_⟩
      rw [List.append_nil]
      refine h.of_end (t := t) ?_ ?_ hothers ?_ ?_
      · simp only [onMessage, hsession, List.map_nil, List.append_nil]
      · simp only [onMessage, hsession]
      · exact ⟨[], by rw [List.append_nil, ends_onMessage_self]⟩
      · rw [ends_onMessage_self, hsession]
        exact .asking call unsent phase request (by simpa using stream) hmem
          (by simp only [toClient, List.flatten_nil, List.append_nil]) issued told

theorem Sound.connected (text : JsonText) (r : JsonRpcRouter ω) (w₀ : ω) :
    Sound text r w₀ [] (connected w₀ : JsonRpcLink T ω) where
  served := rfl
  linearizes := .init w₀
  standing _ := .connected

/-- **Step lemma**: the history grows at its end. -/
theorem Sound.step (hcarried : r.Carried text) {history : List (T × (Bytes × Json))}
    (h : Sound text r w₀ history s) {l : JsonLinkLabel T} (hl : Orderly text s l)
    (hs : s.step text what r l = some s') : ∃ later, Sound text r w₀ (history ++ later) s' := by
  cases l with
  | deliver t n =>
    simp only [JsonRpcLink.step] at hs
    split at hs
    · cases hs
      exact h.deliver hcarried ‹_›
    · cases hs
  | call t method params =>
    obtain ⟨e, he, rfl⟩ := Option.map_eq_some_iff.mp hs
    refine ⟨[], ?_⟩
    rw [List.append_nil]
    refine h.of_end rfl rfl (fun t' ht => ends_setEnd_of_ne s ht e) ?_ ?_
    · rw [ends_setEnd_self]
      exact JsonRpcEnd.issued_invoke he
    · rw [ends_setEnd_self]
      exact (h.standing t).invoke hl he
  | write t w =>
    obtain ⟨e, he, rfl⟩ := Option.map_eq_some_iff.mp hs
    refine ⟨[], ?_⟩
    rw [List.append_nil]
    refine h.of_end rfl rfl (fun t' ht => ends_setEnd_of_ne s ht e) ?_ ?_
    · exact ⟨[], by rw [List.append_nil, ends_setEnd_self, JsonRpcEnd.issued_write he]⟩
    · rw [ends_setEnd_self]
      exact (h.standing t).write hl he
  | read t res =>
    obtain ⟨e, he, rfl⟩ := Option.map_eq_some_iff.mp hs
    refine ⟨[], ?_⟩
    rw [List.append_nil]
    refine h.of_end rfl rfl (fun t' ht => ends_setEnd_of_ne s ht e) ?_ ?_
    · exact ⟨[], by rw [List.append_nil, ends_setEnd_self, JsonRpcEnd.issued_read he]⟩
    · rw [ends_setEnd_self]
      exact (h.standing t).read hl he

theorem sound_of_reaches (hcarried : r.Carried text)
    (h : (system text what r w₀).Reaches (Orderly text) s) : ∃ history, Sound text r w₀ history s := by
  refine h.invariant (I := fun s => ∃ history, Sound text r w₀ history s) ⟨[], .connected text r w₀⟩ ?_
  rintro s l s' ⟨history, hsound⟩ hl hs
  obtain ⟨later, hlater⟩ := hsound.step hcarried hl hs
  exact ⟨history ++ later, hlater⟩

/-- What of a history has taken effect are the calls served. -/
theorem Sound.take_served {history : List (T × (Bytes × Json))} {m : Nat}
    (h : Sound text r w₀ (history.take m) s) : history.take s.served.length = history.take m := by
  rw [← h.served, List.length_map, List.length_take, ← List.take_eq_take_min]

/-- Where a client is in no call, all its calls have taken effect and ended. -/
theorem Sound.settled {history : List (T × (Bytes × Json))} (h : Sound text r w₀ history s) {t : T}
    (hidle : (s.ends t).phase = .idle) :
    ofClient t history = (s.ends t).issued ∧
      ofClient t (replay (callSeen r) history w₀).1 = (s.ends t).told := by
  cases h.standing t with
  | idle _ _ _ _ issued told => exact ⟨issued.symm, told.symm⟩
  | asking call unsent phase =>
    rw [hidle] at phase
    rcases phase with ⟨hphase, -⟩ | ⟨hphase, -⟩ <;> cases hphase
  | answered phase =>
    rw [hidle] at phase
    cases phase

/-- **JSON-RPC calls are linearizable**: for every run there is one order of the calls, that in which they
were served, such that at every moment of the run the calls served so far, replayed in this order, account
for what each client has called and for what its calls have returned or thrown; a client that is in no call
has been told of all its calls.  So a call that has ended at some moment comes before every call that
begins after it. -/
theorem calls_linearizable (hcarried : r.Carried text) (ls : List (JsonLinkLabel T))
    (hrun : (system text what r w₀).run (connected w₀) ls = some s)
    (hadmits : (system text what r w₀).Admits (Orderly text) (connected w₀) ls) :
    ∃ history : List (T × (Bytes × Json)), history.map Prod.fst = s.served ∧
      ∀ n s', (system text what r w₀).run (connected w₀) (ls.take n) = some s' →
        (history.take s'.served.length).map Prod.fst = s'.served ∧
        Linearizes (callSeen r) w₀ (history.take s'.served.length) (fun t => (s'.ends t).issued)
          (fun t => (s'.ends t).told) s'.router ∧
        (∀ t, (s'.ends t).phase = .idle →
          ofClient t (history.take s'.served.length) = (s'.ends t).issued ∧
          ofClient t (replay (callSeen r) (history.take s'.served.length) w₀).1 = (s'.ends t).told) ∧
        ∀ i j t t' call call', history[i]? = some (t, call) → history[j]? = some (t', call') →
          (ofClient t (history.take i)).length < (s'.ends t).told.length →
          (s'.ends t').issued.length ≤ (ofClient t' (history.take j)).length → i < j := by
  obtain ⟨history, hsound, hmoments⟩ := System.run_history (I := fun history s => Sound text r w₀ history s)
    (fun _ _ _ _ hsound hl hs => hsound.step hcarried hl hs) ls (.connected text r w₀) hrun hadmits
  rw [List.nil_append] at hsound hmoments
  refine ⟨history, hsound.served, fun n s' hs' => ?_⟩
  obtain ⟨m, hm⟩ := hmoments n s' hs'
  rw [hm.take_served]
  refine ⟨hm.served, hm.linearizes, fun t hidle => hm.settled hidle, ?_⟩
  intro i j t t' call call' _ hj hended hbegins
  exact hm.linearizes.precedes hj hended hbegins

/-- The request and the answers of a method that turns a flag over. -/
def toggleRequest : Bytes := asciiBytes "\x7b\"id\":1,\"jsonrpc\":\"2.0\",\"method\":\"toggle\"\x7d"

def toggleReply (b : Bool) : Bytes :=
  if b then asciiBytes "\x7b\"id\":1,\"jsonrpc\":\"2.0\",\"result\":true\x7d"
  else asciiBytes "\x7b\"id\":1,\"jsonrpc\":\"2.0\",\"result\":false\x7d"

/-- `json::parse` and `dump` on these. -/
def toggleText : JsonText where
  parse s :=
    if s = toggleRequest then .ok (buildRequest "toggle" .null 1)
    else if s = toggleReply true then .ok (JsonRpcRouter.makeResponse (.number (.integer 1)) (.bool true))
    else if s = toggleReply false then .ok (JsonRpcRouter.makeResponse (.number (.integer 1)) (.bool false))
    else .error .parseError
  dump j :=
    match j.member? "result" with
    | some (.bool b) => .ok (toggleReply b)
    | _ => .ok toggleRequest

theorem parse_toggleRequest : toggleText.parse toggleRequest = .ok (buildRequest "toggle" .null 1) := by
  simp only [toggleText, if_true]

theorem parse_toggleReply (b : Bool) : toggleText.parse (toggleReply b) =
    .ok (JsonRpcRouter.makeResponse (.number (.integer 1)) (.bool b)) := by
  have hrequest : toggleReply b ≠ toggleRequest := by cases b <;> decide
  have hreplies : toggleReply false ≠ toggleReply true := by decide
  cases b with
  | true => simp only [toggleText, hrequest, if_false, if_true]
  | false => simp only [toggleText, hrequest, hreplies, if_false, if_true]

def toggleRouter : JsonRpcRouter Bool :=
  JsonRpcRouter.create.registerMethod "toggle" fun _ b => (.returned (.bool b), !b)

theorem toggle_carried : toggleRouter.Carried toggleText := by
  rintro ⟨method, params⟩ seq w ⟨line, hline⟩
  have hparse := hline.parse
  have hmember : ∀ {j : Json}, (.ok j : Except JsonException Json) = .ok (buildRequest method params seq) →
      j.member? "id" = some (.number (.integer seq.toNat)) ∧ j.member? "method" = some (.string method) ∧
        (params.isNull = false → j.member? "params" = some params) := by
    intro j hj
    cases hj
    refine ⟨?_, ?_, fun hnull => ?_⟩
    · rw [JsonRpcClient.member?_buildRequest, if_pos rfl]
    · rw [JsonRpcClient.member?_buildRequest, if_neg (by decide), if_neg (by simp +decide), if_pos rfl]
    · rw [JsonRpcClient.member?_buildRequest, if_neg (by decide), if_pos ⟨rfl, hnull⟩]
  -- only the request has a method
  have htoggle : seq.toNat = 1 ∧ method = asciiBytes "toggle" ∧ params = .null := by
    unfold toggleText at hparse
    simp only at hparse
    split at hparse
    · obtain ⟨hid, hmethod, hparams⟩ := hmember hparse
      have hseq : (1 : Int) = (seq.toNat : Int) := by
        simp only [JsonRpcClient.member?_buildRequest, if_true] at hid
        injection hid with hid
        injection hid with hid
        injection hid
      refine ⟨by omega, ?_, ?_⟩
      · rw [JsonRpcClient.member?_buildRequest, if_neg (by decide), if_neg (by simp +decide),
          if_pos rfl] at hmethod
        injection hmethod with hmethod
        injection hmethod with hmethod
        exact hmethod.symm
      · cases params with
        | null => rfl
        | _ => cases hparams rfl
    · split at hparse
      · cases (hmember hparse).2.1
      · split at hparse
        · cases (hmember hparse).2.1
        · cases hparse
  obtain ⟨hseq, rfl, rfl⟩ := htoggle
  have hcall : toggleRouter.localCall (asciiBytes "toggle", .null) w = (.ok (.bool w), !w) := by
    simp [JsonRpcRouter.localCall, toggleRouter, JsonRpcRouter.registerMethod, JsonRpcRouter.isStructured,
      Json.isNull]
  rw [hcall, hseq]
  refine ⟨toggleReply w, rfl, ?_, ?_, ?_⟩
  · cases w <;> decide
  · cases w <;> decide
  · exact parse_toggleReply w

/-- The steps of a run of first calls of `toggle`. -/
def onlyToggles (s : JsonRpcLink Bool Bool) : JsonLinkLabel Bool → Bool
  | .call t method params =>
    method = asciiBytes "toggle" ∧ params.isNull ∧ (s.ends t).client.nextSequenceId = 1
  | .write _ (.accepted n) => 0 < n
  | .read _ (.data bytes) => bytes ≠ []
  | .write _ (.failed e) | .read _ (.failed e) => e = .eintr
  | .deliver _ _ => true

theorem orderly_of_onlyToggles (s : JsonRpcLink Bool Bool) (l : JsonLinkLabel Bool)
    (h : onlyToggles s l = true) : Orderly toggleText s l := by
  cases l with
  | call t method params =>
    obtain ⟨rfl, hnull, hseq⟩ := of_decide_eq_true h
    have hparams : params = .null := by
      cases params with
      | null => rfl
      | _ => cases hnull
    subst hparams
    refine ⟨toggleRequest, rfl, by decide, by decide, ?_⟩
    show toggleText.parse toggleRequest = .ok (buildRequest _ _ (s.ends t).client.nextSequenceId)
    rw [hseq]
    exact parse_toggleRequest
  | write t w =>
    cases w with
    | accepted n =>
      obtain ⟨m, rfl⟩ := Nat.exists_eq_add_one_of_ne_zero (Nat.ne_of_gt (of_decide_eq_true h))
      exact .inr ⟨m, rfl⟩
    | failed e => exact .inl (congrArg WriteResult.failed (of_decide_eq_true h))
  | deliver t n => trivial
  | read t res =>
    cases res with
    | data bytes => exact .inr ⟨bytes, of_decide_eq_true h, rfl⟩
    | failed e => exact .inl (congrArg ReadResult.failed (of_decide_eq_true h))

/-- Two clients call at a time; the server gets both requests in parts, and answers one. -/
def firstToggle : List (JsonLinkLabel Bool) :=
  [.call true "toggle" .null, .write true (.accepted 10), .call false "toggle" .null, .deliver true 7,
    .write false (.accepted 30), .write true (.failed .eintr), .write true (.accepted 33),
    .deliver true 36, .deliver false 30, .read true (.data (asciiBytes "\x7b\"id\":1,")),
    .read true (.data (asciiBytes "\"jsonrpc\":\"2.0\",\"result\":false\x7d" ++ [newline]))]

/-- The other one. -/
def secondToggle : List (JsonLinkLabel Bool) :=
  [.write false (.accepted 13), .deliver false 13,
    .read false (.data (toggleReply true ++ [newline]))]

def toggleSystem : System (JsonRpcLink Bool Bool) (JsonLinkLabel Bool) :=
  system toggleText (fun _ => []) toggleRouter false

theorem calls_linearizable_toggle :
    ∃ s, toggleSystem.run (connected false) (firstToggle ++ secondToggle) = some s ∧
      s.served = [true, false] ∧
      ∃ history : List (Bool × (Bytes × Json)), history.map Prod.fst = s.served ∧
        ∀ n s', toggleSystem.run (connected false) ((firstToggle ++ secondToggle).take n) = some s' →
          (history.take s'.served.length).map Prod.fst = s'.served ∧
          Linearizes (callSeen toggleRouter) false (history.take s'.served.length)
            (fun t => (s'.ends t).issued) (fun t => (s'.ends t).told) s'.router := by
  obtain ⟨s, hrun, hadmits, hserved⟩ :
      ∃ s ∈ toggleSystem.run (connected false) (firstToggle ++ secondToggle),
        toggleSystem.Admits (fun s l => onlyToggles s l = true) (connected false)
          (firstToggle ++ secondToggle) ∧ s.served = [true, false] := by
    decide +kernel
  obtain ⟨history, hall, hmoments⟩ := calls_linearizable toggle_carried (firstToggle ++ secondToggle) hrun
    (.mono orderly_of_onlyToggles _ hadmits)
  refine ⟨s, hrun, hserved, history, hall, fun n s' hs' => ?_⟩
  obtain ⟨hserved', hlinearizes, -⟩ := hmoments n s' hs'
  exact ⟨hserved', hlinearizes⟩

/-! ## Every call comes back -/

end JsonRpcLink

/-- The bytes the send loop has left. -/
def CallPhase.unsent : CallPhase → Bytes
  | .writing _ _ unsent => unsent
  | _ => []

/-- Bytes move. -/
def JsonLinkLabel.moves {T : Type*} : JsonLinkLabel T → Bool
  | .write _ (.accepted _) | .deliver _ _ | .read _ (.data _) => true
  | _ => false

/-- What a call has still before it. -/
def JsonRpcEnd.rank (e : JsonRpcEnd) : Nat × (Nat × Nat) :=
  (e.phase.unsent.length, e.toServer.length, e.toClient.length)

/-- The bytes to send come before those on their way. -/
def CallRankLt : Nat × (Nat × Nat) → Nat × (Nat × Nat) → Prop :=
  Prod.Lex (· < ·) (Prod.Lex (· < ·) (· < ·))

theorem wellFounded_callRankLt : WellFounded CallRankLt :=
  (Prod.lex Nat.lt_wfRel (Prod.lex Nat.lt_wfRel Nat.lt_wfRel)).wf

namespace JsonRpcEnd

variable {text : JsonText} {what : JsonException → Bytes} {e e' : JsonRpcEnd} {mine : List (Bytes × Json)}
  {outcomes : List (Except ClientException Json)}

theorem rank_write {n : Nat} (hs : e.write (.accepted (n + 1)) = some e') :
    CallRankLt e'.rank e.rank := by
  unfold JsonRpcEnd.write at hs
  split at hs
  · rename_i hphase
    simp only at hs
    split at hs
    · rename_i hle
      cases hs
      apply Prod.Lex.left
      simp only [hphase]
      split
      · simp only [CallPhase.unsent, List.length_nil]
        omega
      · simp only [CallPhase.unsent, List.length_drop]
        omega
    · cases hs
  · cases hs

theorem rank_read {bytes : Bytes} (hne : bytes ≠ []) (hs : e.read text what (.data bytes) = some e') :
    CallRankLt e'.rank e.rank := by
  unfold JsonRpcEnd.read at hs
  split at hs
  · rename_i hphase
    cases bytes with
    | nil => exact absurd rfl hne
    | cons b bs =>
      simp only at hs
      split at hs
      · rename_i hcome
        have hle := hcome.length_le
        have hlt : (e.toClient.drop (b :: bs).length).length < e.toClient.length := by
          rw [List.length_drop]
          simp only [List.length_cons] at hle ⊢
          omega
        unfold rank
        rw [hphase]
        split at hs
        · cases hs
          exact .right _ (.right _ hlt)
        · cases hs
          exact .right _ (.right _ hlt)
      · cases hs
  · cases hs

/-- **A call that has not ended can move**, whatever the others do. -/
theorem Standing.exists_move (what : JsonException → Bytes) (h : Standing text e mine outcomes)
    (hbusy : e.phase ≠ .idle) :
    (∃ n, (e.write (.accepted (n + 1))).isSome = true) ∨ 0 < e.toServer.length ∨
      ∃ bytes, bytes ≠ [] ∧ (e.read text what (.data bytes)).isSome = true := by
  cases h with
  | idle phase => exact absurd phase hbusy
  | asking call unsent phase request stream halfPack =>
    rcases phase with ⟨hphase, hne⟩ | ⟨-, hunsent⟩
    · left
      obtain ⟨n, hn⟩ := Nat.exists_eq_add_one_of_ne_zero (mt List.length_eq_zero_iff.mp hne)
      refine ⟨n, ?_⟩
      unfold JsonRpcEnd.write
      rw [hphase]
      simp only [if_pos (Nat.le_of_eq hn.symm), Option.isSome_some]
    · right
      left
      rw [hunsent, List.append_nil] at stream
      apply List.length_pos_of_ne_nil
      intro hnil
      apply halfPack
      rw [hnil, List.append_nil] at stream
      rw [stream]
      simp
  | @answered seq request responseBuf line outcome phase reply toServer connBuf stream unread =>
    right
    right
    have hne : e.toClient ≠ [] := by
      intro hnil
      apply unread
      rw [hnil, List.append_nil] at stream
      rw [stream]
      simp
    obtain ⟨b, bs, hbytes⟩ := List.exists_cons_of_ne_nil hne
    have hall : newline ∈ responseBuf ++ b :: bs := by
      rw [← hbytes, stream]
      simp
    refine ⟨b :: bs, List.cons_ne_nil b bs, ?_⟩
    unfold JsonRpcEnd.read
    rw [phase]
    simp only [hbytes, List.prefix_rfl, if_true, if_pos hall, Option.isSome_some]

end JsonRpcEnd

namespace JsonRpcLink

variable {T ω : Type*} [DecidableEq T] {text : JsonText} {what : JsonException → Bytes}
  {r : JsonRpcRouter ω} {w₀ : ω} {s s' : JsonRpcLink T ω}

/-- A step that moves bytes of a connection brings the end of its call nearer. -/
theorem rank_step {l : JsonLinkLabel T} (hmoves : l.moves = true) (hl : Orderly text s l)
    (hs : s.step text what r l = some s') :
    CallRankLt (s'.ends l.client).rank (s.ends l.client).rank := by
  cases l with
  | call _ _ _ => cases hmoves
  | write t w =>
    obtain ⟨e, he, rfl⟩ := Option.map_eq_some_iff.mp hs
    rw [JsonLinkLabel.client, ends_setEnd_self]
    rcases hl with rfl | ⟨n, rfl⟩
    · cases hmoves
    · exact JsonRpcEnd.rank_write he
  | deliver t n =>
    simp only [step] at hs
    split at hs
    · rename_i hn
      cases hs
      rw [JsonLinkLabel.client, ends_onMessage_self]
      refine .right _ (.left _ _ ?_)
      rw [List.length_drop]
      omega
    · cases hs
  | read t res =>
    obtain ⟨e, he, rfl⟩ := Option.map_eq_some_iff.mp hs
    rw [JsonLinkLabel.client, ends_setEnd_self]
    rcases hl with rfl | ⟨bytes, hbytes, rfl⟩
    · cases hmoves
    · exact JsonRpcEnd.rank_read hbytes he

/-- **No call waits for good**: from any state that any number of clients have got into, the steps that
move bytes of one connection, without those of others, lead its call to its end. -/
theorem calls_come_back (hcarried : r.Carried text)
    (h : (system text what r w₀).Reaches (Orderly text) s) (t : T) :
    (system text what r w₀).Inevitable
      (fun s l => Orderly text s l ∧ l.client = t ∧ l.moves = true)
      (fun s => (s.ends t).phase = .idle) s := by
  refine System.Inevitable.of_decreasing (I := fun s => ∃ history, Sound text r w₀ history s)
    wellFounded_callRankLt (fun s => (s.ends t).rank) ?_ ?_ (sound_of_reaches hcarried h)
  · rintro s ⟨history, hsound⟩ hbusy
    rcases (hsound.standing t).exists_move what hbusy with
      ⟨n, hsome⟩ | hpos | ⟨bytes, hbytes, hsome⟩
    · obtain ⟨e, he⟩ := Option.isSome_iff_exists.mp hsome
      refine ⟨.write t (.accepted (n + 1)), s.setEnd t e, ⟨.inr ⟨n, rfl⟩, rfl, rfl⟩, ?_⟩
      simp only [system, step, he, Option.map_some]
    · refine ⟨.deliver t (s.ends t).toServer.length, s.onMessage text r t (s.ends t).toServer.length,
        ⟨trivial, rfl, rfl⟩, ?_⟩
      exact if_pos ⟨hpos, Nat.le_refl _⟩
    · obtain ⟨e, he⟩ := Option.isSome_iff_exists.mp hsome
      refine ⟨.read t (.data bytes), s.setEnd t e, ⟨.inr ⟨bytes, hbytes, rfl⟩, rfl, rfl⟩, ?_⟩
      simp only [system, step, he, Option.map_some]
  · rintro s l s' ⟨history, hsound⟩ - ⟨hl, rfl, hmoves⟩ hs
    obtain ⟨later, hlater⟩ := hsound.step hcarried hl hs
    exact .inr ⟨⟨history ++ later, hlater⟩, rank_step hmoves hl hs⟩

theorem calls_come_back_toggle :
    ∃ s ∈ toggleSystem.run (connected false) firstToggle, toggleSystem.Inevitable
      (fun s l => Orderly toggleText s l ∧ l.client = false ∧ l.moves = true)
      (fun s => (s.ends false).phase = .idle) s := by
  obtain ⟨s, hrun, -⟩ : ∃ s ∈ toggleSystem.run (connected false) firstToggle, s.served = [true] := by
    decide +kernel
  have hadmits : toggleSystem.Admits (fun s l => onlyToggles s l = true) (connected false)
      firstToggle := by
    decide +kernel
  exact ⟨s, hrun, calls_come_back toggle_carried
    (.of_run firstToggle hrun (.mono orderly_of_onlyToggles firstToggle hadmits)) false⟩

end JsonRpcLink

end Tudou
