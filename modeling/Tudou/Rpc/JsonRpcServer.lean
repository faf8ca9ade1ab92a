import Tudou.Foundation.Framing
import Tudou.Foundation.Run
import Tudou.Tcp.Buffer
import Tudou.Tcp.ConnectionTable

/-!
# `JsonRpcServer`: requests in lines

Model of `src/tudou/rpc/json/JsonRpcServer.cpp`; `JsonRpcRouter::dispatch` is a parameter.  The
buffer of a connection is used through a reference into the table all along `on_message`.  All callbacks
run on one loop, one after the other: `connectionBuffers_` has no lock.

* `lines` — the byte stream as lines.
* `onMessage` — the loop; a send that fails closes the connection, whose entry is then gone.
* `onMessage_spec` — **on an open connection whose sends succeed, complete lines are answered in order
  and the rest is buffered**.
-/

namespace Tudou

open Framing Transition

def newline : Byte := 10

/-- `find('\n')`, and what stands before and after it. -/
def scanLine (connBuf : Bytes) : Scan Byte Bytes :=
  if newline ∈ connBuf then
    let pos := connBuf.idxOf newline
    .message (connBuf.take pos) (connBuf.drop (pos + 1))
  else .more

theorem scanLine_of_mem {connBuf : Bytes} (h : newline ∈ connBuf) :
    scanLine connBuf =
      .message (connBuf.take (connBuf.idxOf newline)) (connBuf.drop (connBuf.idxOf newline + 1)) :=
  if_pos h

theorem scanLine_of_not_mem {connBuf : Bytes} (h : newline ∉ connBuf) : scanLine connBuf = .more :=
  if_neg h

/-- **The byte stream as lines.** -/
def lines : Splitter Byte Bytes where
  scan := scanLine
  length_lt := by
    intro connBuf line rest h
    by_cases hmem : newline ∈ connBuf
    · rw [scanLine_of_mem hmem] at h
      cases h
      have hlt := List.idxOf_lt_length_of_mem hmem
      rw [List.length_drop]
      omega
    · rw [scanLine_of_not_mem hmem] at h
      cases h
  message_append := by
    intro connBuf line rest data h
    by_cases hmem : newline ∈ connBuf
    · rw [scanLine_of_mem hmem] at h
      cases h
      have hlt := List.idxOf_lt_length_of_mem hmem
      rw [scanLine_of_mem (List.mem_append_left data hmem), List.idxOf_append, if_pos hmem,
        List.take_append_of_le_length (by omega), List.drop_append_of_le_length (by omega)]
    · rw [scanLine_of_not_mem hmem] at h
      cases h
  corrupt_append := by
    intro connBuf data h
    by_cases hmem : newline ∈ connBuf
    · rw [scanLine_of_mem hmem] at h
      cases h
    · rw [scanLine_of_not_mem hmem] at h
      cases h

/-- The server with what it passed to `send` on open connections. -/
structure JsonRpcServer where
  connectionBuffers : ConnectionTable Bytes
  sent : List (Nat × Bytes)

inductive JsonServerLabel where
  | lifecycle (l : Lifecycle)
  /-- `closes k`: the `k`-th send of this delivery fails and closes the connection. -/
  | message (a : Nat) (data : Bytes) (closes : Nat → Bool)

namespace JsonRpcServer

def create : JsonRpcServer := ⟨.create, []⟩

/-- `conn->send(msg)`. -/
def send (s : JsonRpcServer) (a : Nat) (msg : Bytes) (closes : Bool) : JsonRpcServer :=
  if s.connectionBuffers.status a = .open then
    if closes then { s with connectionBuffers := s.connectionBuffers.close a }
    else { s with sent := s.sent ++ [(a, msg)] }
  else s

/-- The loop of `on_message`, before its `k`-th send. -/
def handleLines (dispatch : Bytes → Bytes) (a : Nat) (closes : Nat → Bool) :
    Nat → Nat → JsonRpcServer → JsonRpcServer
  | 0, _, s => s
  | fuel + 1, k, s =>
    match s.connectionBuffers.entries a with
    | none => { s with connectionBuffers := s.connectionBuffers.useErased }
    | some connBuf =>
      match scanLine connBuf with
      | .more | .corrupt => s
      | .message requestStr rest =>
        let s := { s with connectionBuffers := s.connectionBuffers.store a rest }
        if requestStr = [] then handleLines dispatch a closes fuel k s
        else
          let responseStr := dispatch requestStr
          if responseStr = [] then handleLines dispatch a closes fuel k s
          else handleLines dispatch a closes fuel (k + 1) (s.send a (responseStr ++ [newline]) (closes k))

def onMessage (dispatch : Bytes → Bytes) (a : Nat) (data : Bytes) (closes : Nat → Bool)
    (s : JsonRpcServer) : JsonRpcServer :=
  if data = [] then s
  else
    let connBuf := (s.connectionBuffers.entries a).getD [] ++ data
    let s := { s with connectionBuffers := s.connectionBuffers.store a connBuf }
    -- every turn of the loop but the last consumes a newline, so this fuel does not run out
    handleLines dispatch a closes (connBuf.length + 1) 0 s

def step (dispatch : Bytes → Bytes) (s : JsonRpcServer) : JsonServerLabel → Option JsonRpcServer
  | .lifecycle l =>
    (s.connectionBuffers.lifecycle none l).map fun t => { s with connectionBuffers := t }
  | .message a data closes =>
    if s.connectionBuffers.running ∧ s.connectionBuffers.status a ≠ .free then
      some (s.onMessage dispatch a data closes)
    else none

def system (dispatch : Bytes → Bytes) : System JsonRpcServer JsonServerLabel := ⟨create, step dispatch⟩

/-- The responses to the complete lines in a buffer; empty lines and notifications get none. -/
def responses (dispatch : Bytes → Bytes) (connBuf : Bytes) : List Bytes :=
  (((lines.split connBuf).1.filter (· ≠ [])).map dispatch).filter (· ≠ [])

theorem responses_of_message {dispatch : Bytes → Bytes} {connBuf requestStr rest : Bytes}
    (h : scanLine connBuf = .message requestStr rest) :
    responses dispatch connBuf = if requestStr = [] ∨ dispatch requestStr = [] then
      responses dispatch rest else dispatch requestStr :: responses dispatch rest := by
  have hsplit : lines.split connBuf = (requestStr :: (lines.split rest).1, (lines.split rest).2) :=
    Splitter.split_of_message h
  unfold responses
  rw [hsplit]
  by_cases hempty : requestStr = []
  · simp [hempty]
  · by_cases hsilent : dispatch requestStr = []
    · simp [hempty, hsilent]
    · simp [hempty, hsilent]

/-- **The loop answers the lines in the buffer, in order**, and leaves what is no line yet, on an open
connection whose sends succeed. -/
theorem handleLines_spec {dispatch : Bytes → Bytes} {a : Nat} {closes : Nat → Bool} {fuel k : Nat}
    {s : JsonRpcServer} {connBuf : Bytes} (hfuel : connBuf.length < fuel)
    (hopen : s.connectionBuffers.status a = .open)
    (hbuf : s.connectionBuffers.entries a = some connBuf)
    (hsend : ∀ j < (responses dispatch connBuf).length, closes (k + j) = false) :
    handleLines dispatch a closes fuel k s =
      { connectionBuffers := s.connectionBuffers.store a ((lines.split connBuf).2.getD [])
        sent := s.sent ++ (responses dispatch connBuf).map fun r => (a, r ++ [newline]) } := by
  induction fuel generalizing k s connBuf with
  | zero => omega
  | succ fuel ih =>
    unfold handleLines
    simp only [hbuf]
    by_cases hmem : newline ∈ connBuf
    · have hscan := scanLine_of_mem hmem
      have hlt := lines.length_lt hscan
      have hsplit := Splitter.split_of_message (S := lines) hscan
      set rest := connBuf.drop (connBuf.idxOf newline + 1)
      have hrest := ConnectionTable.entries_store_self s.connectionBuffers a rest
      rw [responses_of_message hscan] at hsend ⊢
      simp only [hscan, hsplit]
      by_cases hempty : connBuf.take (connBuf.idxOf newline) = []
      · simp only [hempty, true_or, if_true] at hsend ⊢
        rw [ih (s := { s with connectionBuffers := s.connectionBuffers.store a rest }) (by omega)
          hopen hrest hsend, ConnectionTable.store_store]
      by_cases hsilent : dispatch (connBuf.take (connBuf.idxOf newline)) = []
      · simp only [hempty, hsilent, or_true, if_true, if_false] at hsend ⊢
        rw [ih (s := { s with connectionBuffers := s.connectionBuffers.store a rest }) (by omega)
          hopen hrest hsend, ConnectionTable.store_store]
      · simp only [hempty, hsilent, or_self, if_false] at hsend ⊢
        have hfirst : closes k = false := hsend 0 (by simp)
        have hothers : ∀ j < (responses dispatch rest).length, closes (k + 1 + j) = false := by
          intro j hj
          rw [Nat.add_assoc, Nat.add_comm 1 j]
          exact hsend (j + 1) (Nat.succ_lt_succ hj)
        rw [send]
        simp only [ConnectionTable.status_store, hopen, hfirst, if_true, Bool.false_eq_true, if_false]
        rw [ih (s := ⟨s.connectionBuffers.store a rest, s.sent ++ [_]⟩) (by omega) hopen hrest hothers]
        simp only [ConnectionTable.store_store, List.map_cons, List.append_assoc, List.singleton_append]
    · have hscan := scanLine_of_not_mem hmem
      have hsplit := Splitter.split_of_more (S := lines) hscan
      have hnone : responses dispatch connBuf = [] := by
        rw [responses, hsplit]
        rfl
      simp only [hscan, hsplit, hnone, Option.getD_some, ConnectionTable.store_entry hbuf,
        List.map_nil, List.append_nil]

/-- The connection is open and no send of the delivery closes it. -/
def Undisturbed (dispatch : Bytes → Bytes) (s : JsonRpcServer) (a : Nat) (data : Bytes)
    (closes : Nat → Bool) : Prop :=
  s.connectionBuffers.status a = .open ∧
    ∀ j < (responses dispatch ((s.connectionBuffers.entries a).getD [] ++ data)).length, closes j = false

/-- **A delivery to an undisturbed connection** answers the lines it completes and buffers the rest. -/
theorem onMessage_spec {dispatch : Bytes → Bytes} {s : JsonRpcServer} {a : Nat} {data : Bytes}
    {closes : Nat → Bool} (hdata : data ≠ []) (h : s.Undisturbed dispatch a data closes) :
    let connBuf := (s.connectionBuffers.entries a).getD [] ++ data
    s.onMessage dispatch a data closes =
      { connectionBuffers := s.connectionBuffers.store a ((lines.split connBuf).2.getD [])
        sent := s.sent ++ (responses dispatch connBuf).map fun r => (a, r ++ [newline]) } := by
  obtain ⟨hopen, hsend⟩ := h
  intro connBuf
  have hsend' : ∀ j < (responses dispatch connBuf).length, closes (0 + j) = false := by
    intro j hj
    rw [Nat.zero_add]
    exact hsend j hj
  rw [onMessage, if_neg hdata]
  have hspec := handleLines_spec (s := { s with connectionBuffers := s.connectionBuffers.store a connBuf })
    (Nat.lt_succ_self _) hopen (ConnectionTable.entries_store_self _ _ _) hsend'
  rw [ConnectionTable.store_store] at hspec
  exact hspec

theorem follows_onMessage {dispatch : Bytes → Bytes} {s : JsonRpcServer} {a : Nat} {data : Bytes}
    {closes : Nat → Bool} (h : s.connectionBuffers.Follows)
    (hm : data ≠ [] → s.Undisturbed dispatch a data closes) :
    (s.onMessage dispatch a data closes).connectionBuffers.Follows := by
  by_cases hdata : data = []
  · rw [onMessage, if_pos hdata]
    exact h
  · rw [onMessage_spec hdata (hm hdata)]
    exact h.store (hm hdata).1 _

end JsonRpcServer

end Tudou
