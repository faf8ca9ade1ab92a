import Tudou.Foundation.HeadFraming
import Tudou.Http.PipelinedResponses
import Tudou.Http.ResponseLength

/-!
# Reading responses back

What a client that goes by `Content-Length` makes of the bytes an `HttpServer` sends: lines up to an empty
one, one `Content-Length` among them, and a body of that length.  It is to have asked with methods whose
responses have a body.

* `toNat?`, `contentLengthOf` — what the client reads in a head; `responses` — the stream as responses.
* `HttpResponse.Readable` — no CR in the head, delimited, and the file as long as said.
* `read_back` — **readable responses sent one after the other are read back, each with its own body**.
* `client_reads_responses` — **whatever is cut where between client and server, what the client has read are
  responses to its requests, in their order**, and all of them once the connection has drained.
-/

namespace Tudou

open Framing Transition

/-! ## The client -/

/-- A decimal number. -/
def toNat? (digits : Bytes) : Option Nat :=
  if !digits.isEmpty && digits.all fun b => decide (48 ≤ b) && decide (b ≤ 57) then
    some (Nat.ofDigitChars 10 (digits.map fun b => Char.ofNat b.toNat) 0)
  else none

/-- What the head announces: its one `Content-Length`. -/
def contentLengthOf (lines : List Bytes) : Option Nat :=
  match announced lines.tail with
  | [value] => toNat? value
  | _ => none

/-- **The byte stream as responses**: the lines of the head, and the body. -/
def responses : Splitter Byte (List Bytes × Bytes) := HeadFraming.messages contentLengthOf

/-! ## Numbers -/

/-- **A number is read back.** -/
theorem toNat?_ofNat (n : Nat) : toNat? (.ofNat n) = some n := by
  have hne : Bytes.ofNat n ≠ [] := by
    simp only [Bytes.ofNat, Bytes.ofLiteral, Nat.toList_repr]
    intro hnil
    exact Nat.toDigits_ne_nil (List.map_eq_nil_iff.mp hnil)
  have hchars : (Bytes.ofNat n).map (fun b => Char.ofNat b.toNat) = Nat.toDigits 10 n := by
    simp only [Bytes.ofNat, Bytes.ofLiteral, Nat.toList_repr, List.map_map]
    rw [List.map_congr_left (g := id), List.map_id]
    intro c hc
    exact (digit_byte (isDigit_toDigits hc)).1
  have hdigits : (!(Bytes.ofNat n).isEmpty && (Bytes.ofNat n).all
      fun b => decide (48 ≤ b) && decide (b ≤ 57)) = true := by
    simp only [Bool.and_eq_true, Bool.not_eq_true', List.isEmpty_eq_false_iff, List.all_eq_true,
      decide_eq_true_eq]
    exact ⟨hne, fun b hb => mem_ofNat hb⟩
  unfold toNat?
  rw [if_pos hdigits, hchars, Nat.ofDigitChars_ten_toDigits]

namespace HttpResponse

/-- The lines of the head. -/
def headLines (r : HttpResponse) : List Bytes :=
  r.statusText :: r.withContentLength.headFields.map headerLine

/-- The body, from memory or from the file. -/
def bodyBytes (r : HttpResponse) : Bytes := if r.validFile.isSome then r.fileSegment else r.body

/-- What a client is to make of the response. -/
def seen (r : HttpResponse) : List Bytes × Bytes := (r.headLines, r.bodyBytes)

/-- A response that a client can read. -/
structure Readable (r : HttpResponse) : Prop where
  status : 13 ∉ r.httpVersion ∧ 13 ∉ r.statusMessage
  fields : ∀ kv ∈ r.headers, 13 ∉ kv.1 ∧ 13 ∉ kv.2
  delimited : r.Delimited
  /-- The file is as long as it is said to be. -/
  file : r.validFile.isSome = true → r.fileSegment.length = r.fileBody.size

variable {r : HttpResponse}

/-- The head that is sent. -/
theorem withContentLength_messageHead (r : HttpResponse) :
    r.withContentLength.messageHead = HeadFraming.headBytes r.headLines := by
  have hstatus : r.withContentLength.statusText = r.statusText := by
    unfold withContentLength
    split
    · rfl
    · rfl
  rw [messageHead_eq, hstatus]
  rfl

/-- **A response is its lines and its body.** -/
theorem serialised_eq (r : HttpResponse) : r.serialised = HeadFraming.encode r.seen := by
  have hbody : (if r.withContentLength.validFile.isSome then [] else r.withContentLength.body) ++
      r.fileSegment = r.bodyBytes := by
    have hsame : r.withContentLength.body = r.body := by
      unfold withContentLength
      split
      · rfl
      · rfl
    rw [withContentLength_validFile, hsame]
    unfold bodyBytes fileSegment
    cases r.validFile with
    | none => simp
    | some file => simp
  unfold serialised responseHead
  rw [packageToString_eq, List.append_assoc, hbody, withContentLength_messageHead]
  rfl

/-- The fields that the server adds are clean too. -/
theorem Readable.headFields (h : r.Readable) :
    ∀ kv ∈ r.withContentLength.headFields, 13 ∉ kv.1 ∧ 13 ∉ kv.2 := by
  have hheaders : ∀ kv ∈ r.withContentLength.headers, 13 ∉ kv.1 ∧ 13 ∉ kv.2 := by
    intro kv hkv
    unfold withContentLength at hkv
    split at hkv
    · exact h.fields kv hkv
    · rcases mem_setHeader hkv with rfl | hkv
      · have hname : 13 ∉ kContentLengthHeader := by decide
        exact ⟨hname, cr_not_mem_ofNat _⟩
      · exact h.fields kv hkv
  intro kv hkv
  rcases List.mem_append.mp hkv with hkv | hkv
  · exact hheaders kv hkv
  · split at hkv
    · rw [List.mem_singleton.mp hkv]
      decide
    · cases hkv

theorem length_bodyBytes (h : r.Readable) : r.bodyBytes.length = r.bodySize := by
  unfold bodyBytes bodySize getFileSize
  cases hfile : r.validFile with
  | none => rfl
  | some file =>
    have hbody : r.hasFileBody = true := by
      unfold validFile at hfile
      split at hfile
      · assumption
      · cases hfile
    simp only [Option.isSome_some, if_true, hbody]
    exact h.file (by rw [hfile]; rfl)

/-- The lines of the head hold no CR. -/
theorem Readable.headLines (h : r.Readable) : ∀ line ∈ r.headLines, line ≠ [] ∧ 13 ∉ line := by
  intro line hline
  rcases List.mem_cons.mp hline with rfl | hline
  · refine ⟨by simp [statusText], ?_⟩
    have hcode := cr_not_mem_statusCode r.statusCode
    simp only [statusText, List.mem_append, List.mem_singleton, not_or]
    exact ⟨⟨⟨⟨h.status.1, by decide⟩, hcode⟩, by decide⟩, h.status.2⟩
  · obtain ⟨kv, hkv, rfl⟩ := List.mem_map.mp hline
    have hclean := h.headFields kv hkv
    have hcolon : Bytes.ofLiteral ": " = [58, 32] := by decide
    unfold headerLine
    rw [hcolon]
    refine ⟨by simp, ?_⟩
    simp only [List.mem_append, not_or]
    exact ⟨⟨hclean.1, by decide⟩, hclean.2⟩

/-- **The head announces the body.** -/
theorem contentLengthOf_headLines (h : r.Readable) : contentLengthOf r.headLines = some r.bodySize := by
  have hfirst : HeadFraming.linesOf r.statusText = [r.statusText] :=
    HeadFraming.linesOf_line (h.headLines _ List.mem_cons_self).2
  have hlines : r.headLines.tail.flatMap HeadFraming.linesOf = r.headLines.tail := by
    have hsingle := List.flatMap_congr fun line hline =>
      HeadFraming.linesOf_line (h.headLines line (List.mem_of_mem_tail hline)).2
    rw [hsingle, List.flatMap_singleton']
  have hannounced : announced r.headLines.tail = [.ofNat r.bodySize] := by
    rw [← (r.delimited_eq.mp h.delimited).2, contentLengths, fieldLines, withContentLength_messageHead]
    unfold headLines
    rw [HeadFraming.innerLines_headBytes hfirst, List.nil_append]
    exact congrArg announced hlines.symm
  unfold contentLengthOf
  rw [hannounced]
  exact toNat?_ofNat _

theorem wellFormed_seen (h : r.Readable) : HeadFraming.WellFormed contentLengthOf r.seen where
  lines := h.headLines
  length := (contentLengthOf_headLines h).trans (congrArg some (length_bodyBytes h).symm)

/-- **Readable responses sent one after the other are read back**, each with its own body. -/
theorem read_back {rs : List HttpResponse} (h : ∀ r ∈ rs, r.Readable) :
    responses.split (rs.map serialised).flatten = (rs.map seen, some []) := by
  have hbytes : (rs.map serialised).flatten = ((rs.map seen).map HeadFraming.encode).flatten ++ [] := by
    rw [List.map_map, List.append_nil]
    exact congrArg List.flatten (List.map_congr_left fun r _ => r.serialised_eq)
  rw [hbytes]
  refine Splitter.split_encoded (HeadFraming.encodes contentLengthOf) rfl fun m hm => ?_
  obtain ⟨r, hr, rfl⟩ := List.mem_map.mp hm
  exact wellFormed_seen (h r hr)

end HttpResponse

/-! ## At the other end of a connection -/

namespace PlainHttp

variable {P ω : Type*} {L : Llhttp P} {hL : L.Incremental} {handler : HttpHandler ω} {highWaterMark : Nat}
  {w : ω} {c : PlainHttp P ω}

/-- The responses to the first requests come first. -/
theorem answers_front (handler : HttpHandler ω) (w : ω) (requests later : List HttpRequest) :
    (answers handler w requests).1 <+: (answers handler w (requests ++ later)).1 := by
  induction requests generalizing w with
  | nil => exact List.nil_prefix
  | cons request requests ih => exact List.cons_prefix_cons.mpr ⟨rfl, ih _⟩

theorem readable_answers (h : ∀ request w, (handler request w).1.Readable) (w : ω)
    (requests : List HttpRequest) : ∀ r ∈ (answers handler w requests).1, r.Readable := by
  induction requests generalizing w with
  | nil => exact fun _ hr => absurd hr List.not_mem_nil
  | cons request requests ih => exact List.forall_mem_cons.mpr ⟨h request w, ih _⟩

theorem isPrefix_flatten_map {α β : Type*} (f : α → List β) {xs ys : List α} (h : xs <+: ys) :
    (xs.map f).flatten <+: (ys.map f).flatten := by
  obtain ⟨zs, rfl⟩ := h
  exact ⟨(zs.map f).flatten, by rw [List.map_append, List.flatten_append]⟩

/-- A connection that serves is not on its way to a close. -/
theorem Serving.not_abandoned (h : Serving hL handler highWaterMark w c) : ¬Abandoned c.machine := by
  rintro (hclosed | hclosing)
  · rw [h.isOpen] at hclosed
    cases hclosed
  · obtain ⟨frames, hframes, hstack⟩ := h.stack
    rw [hstack] at hclosing
    cases hframes with
    | nil =>
      cases hstage : c.stage with
      | idle =>
        rw [hstage] at hclosing
        cases hclosing
      | receiving _ | running =>
        rw [hstage] at hclosing
        cases hclosing
    | ret => cases hclosing
    | task hallows =>
      cases hclosing with
      | closing => exact hallows

/-- **What is on the wire is a front of the responses** to the requests received. -/
theorem Serving.wire (h : Serving hL handler highWaterMark w c) :
    c.machine.session.wire <+:
      ((answers handler w ((HttpSession.requests hL).split c.received).1).1.map
        HttpResponse.serialised).flatten := by
  obtain ⟨answered, left, ahead, hp⟩ := h.progress
  have hreceived : ((HttpSession.requests hL).split c.received).1 =
      answered ++ ((HttpSession.requests hL).split (left ++ ahead)).1 := (Prod.ext_iff.mp hp.stream).1
  have hpassed : c.machine.session.passed <+:
      ((answers handler w answered).1.map HttpResponse.serialised).flatten := by
    rw [← hp.output, List.append_assoc]
    exact List.prefix_append _ _
  have hwire : c.machine.session.wire <+: c.machine.session.passed := by
    obtain ⟨p, -, hab | hpipe⟩ := connection_refines_pipe.reaches h.reaches
    · exact absurd hab h.not_abandoned
    · rw [← hpipe.delivered, ← hpipe.pushed, ← p.conserved]
      exact List.prefix_append _ _
  rw [hreceived]
  exact hwire.trans (hpassed.trans (isPrefix_flatten_map _ (answers_front handler w answered _)))

/-- Once the socket has taken everything, it is all of them. -/
theorem Serving.wire_of_drained (h : Serving hL handler highWaterMark w c) (hdrained : c.Drained) :
    c.machine.session.wire =
      ((answers handler w ((HttpSession.requests hL).split c.received).1).1.map
        HttpResponse.serialised).flatten := by
  obtain ⟨hstack, hbuffer, hfile⟩ := hdrained
  obtain ⟨answered, left, ahead, hp⟩ := h.progress
  have hreading := hp.reading
  simp only [Reading, h.idle_of_nil hstack] at hreading
  obtain ⟨rfl, hphase, hreads, hdeliver⟩ := hreading
  have hread := hdeliver.resolve_left (by rw [hstack]; rintro (hd | hd) <;> cases hd)
  have hreceived : ((HttpSession.requests hL).split c.received).1 = answered := by
    have hsplit : (HttpSession.requests hL).split left = ([], some left) := hreads.split
    rw [hp.stream, hread, List.append_nil, hsplit, List.append_nil]
  have hpassed : c.machine.session.passed =
      ((answers handler w answered).1.map HttpResponse.serialised).flatten := by
    have hold := hp.output
    simpa [hstack, todo, hphase] using hold
  obtain ⟨p, -, hab | hpipe⟩ := connection_refines_pipe.reaches h.reaches
  · exact absurd hab h.not_abandoned
  · rw [hreceived, ← hpassed, ← hpipe.delivered, ← hpipe.pushed, ← p.conserved, hpipe.queued,
      TcpConnection.unsent_of_none hfile, hbuffer, List.append_nil]

/-- **A client that pipelines reads its answers**: however requests and responses are cut on their way,
what it has read is responses to the first of its requests, in order and each with its own body, and the
beginning of the next one; and once the connection has drained, all of them. -/
theorem client_reads_responses (hL : L.Incremental)
    (hhandler : ∀ request w, KeepsOpen (handler request w).1 ∧ (handler request w).1.Readable)
    (h : (plainHttp L handler highWaterMark w).Reaches
      (fun c l => Faultless l ∧ c.WellFormed L hL l ∧ c.NoFilePending l) c) {read : Bytes}
    (hread : read <+: c.machine.session.wire) :
    ∃ left, (responses.split read).2 = some left ∧
      (responses.split read).1 <+:
        (answers handler w ((HttpSession.requests hL).split c.received).1).1.map HttpResponse.seen ∧
      (c.Drained → read = c.machine.session.wire → left = [] ∧ (responses.split read).1 =
        (answers handler w ((HttpSession.requests hL).split c.received).1).1.map HttpResponse.seen) := by
  have hI : Serving hL handler highWaterMark w c := by
    refine h.invariant (.init hL) fun c l c' hI hg hs => ?_
    exact hI.step (fun request w => (hhandler request w).1) hg.1 hg.2.1 hg.2.2 hs
  have hreadable : ∀ r ∈ (answers handler w ((HttpSession.requests hL).split c.received).1).1,
      r.Readable := readable_answers (fun request w => (hhandler request w).2) w _
  have hall := HttpResponse.read_back hreadable
  obtain ⟨later, hlater⟩ := hread.trans hI.wire
  obtain ⟨left, hleft, hfront⟩ := Splitter.split_front (hlater.symm ▸ hall)
  refine ⟨left, hleft, hfront, ?_⟩
  rintro hdrained rfl
  rw [← hI.wire_of_drained hdrained] at hall
  rw [hall] at hleft ⊢
  exact ⟨(Option.some.inj hleft).symm, rfl⟩

theorem readable_ok : ({ body := .ofLiteral "ok" } : HttpResponse).Readable where
  status := by decide
  fields kv hkv := by cases hkv
  delimited := (HttpResponse.delimited_eq _).mpr (by decide)
  file hfile := by cases hfile

theorem readable_fileResponse : fileResponse.Readable where
  status := by decide
  fields kv hkv := by cases hkv
  delimited := (HttpResponse.delimited_eq _).mpr (by decide)
  file := fun _ => by decide

theorem client_reads_responses_bothAnswered :
    let S := plainHttp (HttpSession.scripted HttpSession.getRequest) okThenFile 65536 false
    ∃ c ∈ S.run S.init bothAnswered, (responses.split c.machine.session.wire).1 =
      [((okThenFile HttpSession.getRoot false).1.headLines, Bytes.ofLiteral "ok"),
        (fileResponse.headLines, [2, 3, 4])] := by
  intro S
  have hg : S.Admits (fun c l => Faultless l ∧
      c.WellFormed _ HttpSession.complete_getRequest.incremental l ∧ c.NoFilePending l)
      S.init bothAnswered := by
    decide +kernel
  obtain ⟨c, hc, hdrained, hreceived⟩ : ∃ c ∈ S.run S.init bothAnswered,
      (c.machine.stack = [] ∧ c.machine.session.conn.writeBuffer.readable = [] ∧
        c.machine.session.conn.pendingFile = none) ∧
      ((HttpSession.requests HttpSession.complete_getRequest.incremental).split c.received).1 =
        [HttpSession.getRoot, HttpSession.getRoot] := by
    decide +kernel
  have hhandler : ∀ request w,
      KeepsOpen (okThenFile request w).1 ∧ (okThenFile request w).1.Readable := by
    intro request w
    cases w with
    | false => exact ⟨⟨rfl, fun file hfile => by cases hfile⟩, readable_ok⟩
    | true =>
      refine ⟨⟨rfl, fun file hfile => ?_⟩, readable_fileResponse⟩
      cases hfile
      rfl
  obtain ⟨_, -, -, hall⟩ := client_reads_responses HttpSession.complete_getRequest.incremental
    hhandler (.of_run bothAnswered hc hg) List.prefix_rfl
  obtain ⟨-, hanswers⟩ := hall hdrained rfl
  refine ⟨c, hc, hanswers.trans ?_⟩
  rw [hreceived]
  decide

end PlainHttp

end Tudou
