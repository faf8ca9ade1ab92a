import Mathlib.Data.List.Induction
import Tudou.Rpc.JsonRpcServer

/-!
# Line framing over whole connections

`JsonRpcServer::on_message` on one open connection, delivery after delivery, with a router that may
change its state; `JsonRpcServer` looks at the table of all connections.

* `serveLines`, `onMessage` — the loop, which ends because every turn but the last takes a newline.
* `lines_split_eq` — the lines of a stream are its segments, the last one unfinished.
* `onMessages_eq` — **however the stream is cut, its complete lines are answered in order** and the
  rest stays in the buffer.
* `line_framing_exact` — **the lines dispatched are the non-empty complete ones, each once.**
-/

namespace Tudou

open Framing

/-- An open connection: its buffer, the router, and what was passed to `send`. -/
structure LineSession (ω : Type*) where
  connBuf : Bytes
  router : ω
  sent : List Bytes

namespace LineSession

variable {ω : Type*} (dispatch : Bytes → ω → Bytes × ω)

def fresh (w : ω) : LineSession ω := ⟨[], w, []⟩

/-- One line: empty ones are skipped, and an empty response is not sent. -/
def answerLine (s : LineSession ω) (requestStr : Bytes) : LineSession ω :=
  if requestStr = [] then s
  else
    let response := dispatch requestStr s.router
    { s with
      router := response.2
      sent := if response.1 = [] then s.sent else s.sent ++ [response.1 ++ [newline]] }

/-- The loop of `on_message`. -/
def serveLines (s : LineSession ω) : LineSession ω :=
  match _hscan : scanLine s.connBuf with
  | .more | .corrupt => s
  | .message requestStr rest => serveLines ({ s with connBuf := rest }.answerLine dispatch requestStr)
termination_by s.connBuf.length
decreasing_by
  have hlt := lines.length_lt _hscan
  unfold answerLine
  split
  · exact hlt
  · exact hlt

def onMessage (s : LineSession ω) (data : Bytes) : LineSession ω :=
  if data = [] then s else serveLines dispatch { s with connBuf := s.connBuf ++ data }

/-! ## The lines of a stream -/

theorem not_mem_take_idxOf (xs : Bytes) : newline ∉ xs.take (xs.idxOf newline) := by
  induction xs with
  | nil => exact List.not_mem_nil
  | cons x xs ih =>
    by_cases hx : x = newline
    · simp [hx]
    · rw [List.idxOf_cons_ne _ hx, List.take_succ_cons, List.mem_cons, not_or]
      exact ⟨Ne.symm hx, ih⟩

/-- **The lines of a stream are its segments**; the last one is not complete. -/
theorem lines_split_eq (stream : Bytes) :
    lines.split stream = ((stream.splitOn newline).dropLast, (stream.splitOn newline).getLast?) := by
  induction stream using lines.stream_induction with
  | step stream ih =>
    by_cases hmem : newline ∈ stream
    · have hscan := scanLine_of_mem hmem
      have hcut : stream = stream.take (stream.idxOf newline) ++
          newline :: stream.drop (stream.idxOf newline + 1) := by
        have hlt := List.idxOf_lt_length_of_mem hmem
        conv_lhs => rw [← List.take_append_drop (stream.idxOf newline) stream]
        rw [List.drop_eq_getElem_cons hlt, List.getElem_idxOf]
      have hsplit : stream.splitOn newline = stream.take (stream.idxOf newline) ::
          (stream.drop (stream.idxOf newline + 1)).splitOn newline := by
        conv_lhs => rw [hcut]
        exact List.splitOn_append_cons_self_of_not_mem (not_mem_take_idxOf stream) _
      have hne := List.splitOn_ne_nil newline (stream.drop (stream.idxOf newline + 1))
      rw [Splitter.split_of_message (S := lines) hscan, ih _ _ hscan, hsplit,
        List.dropLast_cons_of_ne_nil hne, List.getLast?_cons]
      obtain ⟨l, ls, hcons⟩ := List.exists_cons_of_ne_nil hne
      rw [hcons]
      simp [List.getLast?_cons]
    · rw [Splitter.split_of_more (S := lines) (scanLine_of_not_mem hmem),
        List.splitOn_eq_singleton hmem]
      rfl

/-- The segments of a stream that a newline ends. -/
def completeLines (stream : Bytes) : List Bytes := (stream.splitOn newline).dropLast

/-- What follows the last newline. -/
def unfinished (stream : Bytes) : Bytes := (stream.splitOn newline).getLast?.getD []

theorem lines_split (stream : Bytes) :
    lines.split stream = (completeLines stream, some (unfinished stream)) := by
  rw [lines_split_eq, unfinished, List.getLast?_eq_some_getLast (List.splitOn_ne_nil _ _)]
  rfl

/-! ## Deliveries -/

theorem connBuf_answerLine (s : LineSession ω) (requestStr : Bytes) :
    (s.answerLine dispatch requestStr).connBuf = s.connBuf := by
  unfold answerLine
  split
  · rfl
  · rfl

/-- Answering a line does not look at the buffer. -/
theorem answerLine_withBuf (s : LineSession ω) (requestStr connBuf : Bytes) :
    { s with connBuf := connBuf }.answerLine dispatch requestStr =
      { s.answerLine dispatch requestStr with connBuf := connBuf } := by
  unfold answerLine
  split
  · rfl
  · rfl

theorem foldl_answerLine_withBuf (ls : List Bytes) (s : LineSession ω) (connBuf : Bytes) :
    ls.foldl (answerLine dispatch) { s with connBuf := connBuf } =
      { ls.foldl (answerLine dispatch) s with connBuf := connBuf } := by
  induction ls generalizing s with
  | nil => rfl
  | cons l ls ih => rw [List.foldl_cons, List.foldl_cons, answerLine_withBuf, ih]

/-- **The loop answers the complete lines of the buffer in order**, and leaves the rest. -/
theorem serveLines_eq (s : LineSession ω) :
    serveLines dispatch s =
      { (completeLines s.connBuf).foldl (answerLine dispatch) s with
        connBuf := unfinished s.connBuf } := by
  obtain ⟨connBuf, hbuf⟩ : ∃ connBuf, s.connBuf = connBuf := ⟨_, rfl⟩
  induction connBuf using lines.stream_induction generalizing s with
  | step connBuf ih =>
    have hlines := lines_split s.connBuf
    unfold serveLines
    split
    · rename_i hscan
      rw [Splitter.split_of_more (S := lines) hscan] at hlines
      obtain ⟨hnone, hrest⟩ := Prod.mk.inj hlines
      rw [← hnone, ← Option.some.inj hrest]
      rfl
    · rename_i hscan
      rw [Splitter.split_of_corrupt (S := lines) hscan] at hlines
      cases (Prod.mk.inj hlines).2
    · rename_i requestStr rest hscan
      rw [Splitter.split_of_message (S := lines) hscan, lines_split] at hlines
      obtain ⟨hall, hrest⟩ := Prod.mk.inj hlines
      have hbuf' := connBuf_answerLine dispatch { s with connBuf := rest } requestStr
      rw [ih requestStr rest (hbuf ▸ hscan) _ hbuf', hbuf', answerLine_withBuf,
        foldl_answerLine_withBuf, ← hall, ← Option.some.inj hrest]
      rfl

/-- What a connection has done with the bytes delivered so far. -/
theorem onMessages_eq (w : ω) (datas : List Bytes) :
    datas.foldl (onMessage dispatch) (fresh w) =
      { (completeLines datas.flatten).foldl (answerLine dispatch) (fresh w) with
        connBuf := unfinished datas.flatten } := by
  induction datas using List.reverseRecOn with
  | nil => rfl
  | append_singleton datas data ih =>
    rw [List.foldl_append, ih, List.flatten_append, List.flatten_singleton]
    simp only [List.foldl_cons, List.foldl_nil]
    unfold onMessage
    split
    · rename_i hdata
      rw [hdata, List.append_nil]
    · -- more bytes continue from what was left
      have hleft : (lines.split datas.flatten).2 = some (unfinished datas.flatten) := by
        rw [lines_split]
      have hsplit := Splitter.split_append data hleft
      rw [lines_split, lines_split, lines_split] at hsplit
      obtain ⟨hall, hrest⟩ := Prod.mk.inj hsplit
      rw [serveLines_eq]
      simp only [hall, Option.some.inj hrest, List.foldl_append, foldl_answerLine_withBuf]

/-! ## What is dispatched -/

/-- A router that also writes down what it is asked. -/
def logging (dispatch : Bytes → ω → Bytes × ω) (requestStr : Bytes) (w : ω × List Bytes) :
    Bytes × (ω × List Bytes) :=
  let response := dispatch requestStr w.1
  (response.1, response.2, w.2 ++ [requestStr])

theorem log_foldl_answerLine (ls : List Bytes) (s : LineSession (ω × List Bytes)) :
    (ls.foldl (answerLine (logging dispatch)) s).router.2 =
      s.router.2 ++ ls.filter (· ≠ []) := by
  induction ls generalizing s with
  | nil => exact (List.append_nil _).symm
  | cons l ls ih =>
    rw [List.foldl_cons, ih]
    by_cases hl : l = []
    · simp [answerLine, hl]
    · simp [answerLine, logging, hl]

/-- **Line framing is exact and does not depend on the chunks**: after any deliveries the lines
dispatched are the non-empty complete ones of the stream, in order and each once, and the buffer is
what follows the last newline. -/
theorem line_framing_exact (w : ω) (datas : List Bytes) :
    let s := datas.foldl (onMessage (logging dispatch)) (fresh (w, []))
    s.router.2 = (completeLines datas.flatten).filter (· ≠ []) ∧ s.connBuf = unfinished datas.flatten := by
  rw [onMessages_eq]
  refine ⟨?_, rfl⟩
  exact (log_foldl_answerLine dispatch _ _).trans (List.nil_append _)

/-! ## One connection of the server -/

theorem sent_foldl_answerLine (dispatch : Bytes → Bytes) (ls : List Bytes) (s : LineSession Unit) :
    (ls.foldl (answerLine fun requestStr w => (dispatch requestStr, w)) s).sent =
      s.sent ++ (((ls.filter (· ≠ [])).map dispatch).filter (· ≠ [])).map (· ++ [newline]) := by
  induction ls generalizing s with
  | nil => exact (List.append_nil _).symm
  | cons l ls ih =>
    rw [List.foldl_cons, ih]
    by_cases hl : l = []
    · simp [answerLine, hl]
    · by_cases hresponse : dispatch l = []
      · simp [answerLine, hl, hresponse]
      · simp [answerLine, hl, hresponse]

/-- **A delivery to the server is one to the connection's session**, as long as the connection is open
and its sends succeed. -/
theorem server_onMessage (dispatch : Bytes → Bytes) {s : JsonRpcServer} {a : Nat} {data : Bytes}
    {closes : Nat → Bool} (hdata : data ≠ []) (h : s.Undisturbed dispatch a data closes) :
    let t := s.onMessage dispatch a data closes
    let c := onMessage (fun requestStr w => (dispatch requestStr, w))
      ⟨(s.connectionBuffers.entries a).getD [], (), []⟩ data
    t.connectionBuffers.entries a = some c.connBuf ∧ t.sent = s.sent ++ c.sent.map fun r => (a, r) := by
  have ht := JsonRpcServer.onMessage_spec hdata h
  simp only at ht ⊢
  unfold onMessage
  rw [ht, if_neg hdata, serveLines_eq]
  constructor
  · rw [lines_split]
    exact ConnectionTable.entries_store_self _ _ _
  · simp only
    rw [sent_foldl_answerLine, JsonRpcServer.responses, lines_split, List.nil_append, List.map_map]
    rfl

end LineSession

end Tudou
