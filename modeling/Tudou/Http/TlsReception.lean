import Tudou.Http.HttpsServer

/-!
# Reception through TLS

What `HttpServer::on_message` makes of a ciphertext stream in `MemoryBio` mode, over an ideal record
layer.

* `Sound`, `Closed`, `Failed` — the three ways a connection can stand; `Stands.onMessage` — every chunk
  leads from one of them to one of them.
* `ReceivesAs` — what is parsed and dispatched is what the stream says, and a failed connection is
  closed.
* `MeetsInvalid` — the first invalid record arrives while the connection is open.
* `reception_iff` — **a connection receives as the stream says exactly when no invalid record is met.**
* `invalid_record_drops_plaintext` — the plaintext in front of it is lost, or not, with the chunks.
-/

namespace Tudou

open Framing

namespace HttpsServer

variable {P ω S : Type*} (E : HttpsServer P ω S) (hL : E.llhttp.Incremental) (T : TlsStream)
  (Sees : S → TlsView → Prop) (w : ω)

/-- What the plaintext of a ciphertext stream leads to. -/
def intended (stream : Bytes) : List HttpOutcome × Option (ω × Nat × Bytes) :=
  HttpSession.leadsTo hL E.handler (afterMemoryBio E.preads) w 0 (T.plaintext stream)

/-- **Reception is as the stream says**: all plaintext in front of the first invalid record goes to
the parser while the connection is open, its requests are dispatched, and after an `Error` of
`read_plaintext` the connection is closed and nothing more is dispatched. -/
structure ReceivesAs (stream : Bytes) (s : HttpsSession P ω S) : Prop where
  dispatched : s.log = (E.intended hL T w stream).1
  parsed : E.isOpen s = true → s.tls.parsed = T.plaintext stream
  closed : s.tls.readError = true → E.isOpen s = false ∧
    ∀ fuel chunks s', E.receiveAll fuel stream s chunks = some s' → s'.log = s.log

/-- The chunk completes the first invalid record, and the requests before it leave the connection
open. -/
def MeetsInvalidIn (received chunk : Bytes) : Prop :=
  T.view received ≠ .broken ∧ T.view (received ++ chunk) = .broken ∧
    (E.intended hL T w received).2 ≠ none

/-- One of the chunks does. -/
def MeetsInvalid (chunks : List Bytes) : Prop :=
  ∃ before chunk rest, chunks = before ++ chunk :: rest ∧
    E.MeetsInvalidIn hL T w before.flatten chunk

variable {E hL T Sees w}

theorem meetsInvalid_concat {chunks : List Bytes} {chunk : Bytes} :
    E.MeetsInvalid hL T w (chunks ++ [chunk]) ↔
      E.MeetsInvalid hL T w chunks ∨ E.MeetsInvalidIn hL T w chunks.flatten chunk := by
  constructor
  · rintro ⟨before, bad, rest, heq, hmeets⟩
    rcases List.eq_nil_or_concat' rest with rfl | ⟨rest, last, rfl⟩
    · obtain ⟨rfl, hlast⟩ := List.append_inj' heq rfl
      obtain rfl := List.singleton_inj.mp hlast
      exact .inr hmeets
    · rw [← List.cons_append, ← List.append_assoc] at heq
      obtain ⟨rfl, -⟩ := List.append_inj' heq rfl
      exact .inl ⟨before, bad, rest, rfl, hmeets⟩
  · rintro (⟨before, bad, rest, rfl, hmeets⟩ | hmeets)
    · exact ⟨before, bad, rest ++ [chunk], by rw [List.append_assoc, List.cons_append], hmeets⟩
    · exact ⟨chunks, chunk, [], rfl, hmeets⟩

/-- No invalid record so far, and the connection is open. -/
structure Sound (hL : E.llhttp.Incremental) (T : TlsStream) (Sees : S → TlsView → Prop) (w : ω)
    (received : Bytes) (s : HttpsSession P ω S) : Prop where
  sound : T.view received ≠ .broken
  goesOn : (E.intended hL T w received).2 ≠ none
  follows : HttpSession.Follows hL E.handler (afterMemoryBio E.preads) (Receiving T Sees received) w 0 s
    (T.plaintext received)

theorem Sound.receiving {received : Bytes} {s : HttpsSession P ω S} (h : Sound hL T Sees w received s) :
    ∃ i, Receiving T Sees received i s.tls ∧ HttpSession.OnlySends s.issued := by
  obtain ⟨⟨w', i, left⟩, hgoes⟩ := Option.ne_none_iff_exists'.mp h.goesOn
  have hsettled := h.follows.settled
  unfold intended at hgoes
  rw [hgoes] at hsettled
  exact ⟨i, hsettled.2.2.2, hsettled.2.1⟩

/-- A reply has closed the connection. -/
structure Closed (hL : E.llhttp.Incremental) (T : TlsStream) (w : ω) (received : Bytes)
    (s : HttpsSession P ω S) : Prop where
  ends : (E.intended hL T w received).2 = none
  log : s.log = (E.intended hL T w received).1
  notOpen : E.isOpen s = false

/-- `read_plaintext` has failed. -/
structure Failed (E : HttpsServer P ω S) (s : HttpsSession P ω S) : Prop where
  isOpen : E.isOpen s = true
  readError : s.tls.readError = true
  notOffloaded : s.tls.isKtlsOffloaded = false
  error : ∃ tls, s.tls.tlsConnection = some tls ∧ tls.state = .error

/-- How a connection stands after `chunks`. -/
inductive Stands (hL : E.llhttp.Incremental) (T : TlsStream) (Sees : S → TlsView → Prop) (w : ω)
    (chunks : List Bytes) (s : HttpsSession P ω S) : Prop
  | sound : ¬ E.MeetsInvalid hL T w chunks → Sound hL T Sees w chunks.flatten s →
    Stands hL T Sees w chunks s
  | closed : ¬ E.MeetsInvalid hL T w chunks → Closed hL T w chunks.flatten s → Stands hL T Sees w chunks s
  | failed : E.MeetsInvalid hL T w chunks → Failed E s → Stands hL T Sees w chunks s

/-! ## One chunk -/

theorem onMessage_nil (fuel : Nat) (s : HttpsSession P ω S) : E.onMessage fuel [] s = some s :=
  if_pos rfl

/-- A closed connection gets no messages. -/
theorem onMessage_closed {s : HttpsSession P ω S} (h : E.isOpen s = false) (fuel : Nat) (data : Bytes) :
    E.onMessage fuel data s = some s := by
  simp only [onMessage, h, if_true, ite_self]

/-- A failed connection reads nothing, and stays as it is. -/
theorem Failed.onMessage {s : HttpsSession P ω S} (h : Failed E s) (fuel : Nat) (data : Bytes) :
    E.onMessage fuel data s = some s := by
  obtain ⟨hopen, hread, hoff, tls, htls, herror⟩ := h
  by_cases hdata : data = []
  · rw [hdata]
    exact onMessage_nil fuel s
  · obtain ⟨context, world, ⟨conn, mode, offloaded, preads, parsed, readError, kernelSent⟩, log, issued⟩ := s
    obtain rfl : conn = some tls := htls
    obtain rfl : offloaded = false := hoff
    obtain rfl : readError = true := hread
    simp only [HttpsServer.onMessage, if_neg hdata, hopen, reduceCtorEq, if_false,
      TlsConnection.readPlaintext_error herror, sendOutbound, if_true, List.append_nil]

/-- `on_message` behind `read_plaintext`. -/
theorem onMessage_read {s : HttpsSession P ω S} {fuel : Nat} {data : Bytes} (hdata : data ≠ [])
    (hopen : E.isOpen s = true) {tls tls' : TlsConnection S} (htls : s.tls.tlsConnection = some tls)
    (hoff : s.tls.isKtlsOffloaded = false) {result : TlsReadResult} {plaintext outbound : Bytes}
    (hread : tls.readPlaintext E.ssl fuel data = some (tls', result, plaintext, outbound)) :
    E.onMessage fuel data s =
      if result = .error then
        some { sendOutbound tls' outbound s with
          tls := { (sendOutbound tls' outbound s).tls with readError := true } }
      else E.onPlaintext fuel result plaintext (sendOutbound tls' outbound s) := by
  simp only [onMessage, if_neg hdata, hopen, reduceCtorEq, if_false, htls, hoff, hread]

/-- In `MemoryBio` mode nothing is switched. -/
theorem switch_memoryBio {t : ConnectionTls S} (h : t.tlsMode = .memoryBio) :
    t.switch E.ssl E.offload = t := by
  unfold ConnectionTls.switch
  cases t.tlsConnection with
  | none => rfl
  | some tls => exact if_neg (by rw [h]; exact nofun)

theorem onPlaintext_memoryBio {s : HttpsSession P ω S} (hmode : s.tls.tlsMode = .memoryBio)
    (hoff : s.tls.isKtlsOffloaded = false) (fuel : Nat) (result : TlsReadResult) (plaintext : Bytes) :
    E.onPlaintext fuel result plaintext s =
      if result = .ready then E.parse fuel plaintext s else some s := by
  unfold onPlaintext
  simp only [switch_memoryBio hmode, hoff, and_true, ite_not]

theorem onlySends_outbound {issued : List Request} (h : HttpSession.OnlySends issued) (outbound : Bytes) :
    HttpSession.OnlySends (issued ++ if outbound = [] then [] else [.send outbound]) := by
  refine h.append fun r hr => ?_
  split at hr
  · cases hr
  · exact ⟨outbound, List.mem_singleton.mp hr⟩

/-- **One chunk of a sound connection**: it fails at an invalid record, and else goes on with the
plaintext of the stream. -/
theorem Sound.onMessage (hssl : E.ssl.Ideal T Sees)
    (hlen : ∀ request w, (E.handler request w).1.responseHead.length < 2 ^ 31)
    (hnet : ∀ issued, HttpSession.OnlySends issued → E.net issued = true)
    {received : Bytes} {s : HttpsSession P ω S} (h : Sound hL T Sees w received s) {chunk : Bytes}
    (hchunk : chunk ≠ []) :
    ∃ s' n, (∀ fuel ≥ n, E.onMessage fuel chunk s = some s') ∧
      (T.view (received ++ chunk) = .broken → Failed E s') ∧
      (T.view (received ++ chunk) ≠ .broken →
        HttpSession.Follows hL E.handler (afterMemoryBio E.preads) (Receiving T Sees (received ++ chunk))
          w 0 s' (T.plaintext (received ++ chunk))) := by
  have hopen : E.isOpen s = true := h.follows.isOpen hnet h.goesOn
  obtain ⟨i, ht, hissued⟩ := h.receiving
  obtain ⟨tls, htls, hagrees⟩ := ht.agrees
  obtain ⟨tls', result, plaintext, outbound, n, hread, hcontinues⟩ := hagrees.readPlaintext hssl hchunk
  have hstep := fun fuel hfuel => onMessage_read hchunk hopen htls ht.notOffloaded (hread fuel hfuel)
  by_cases hbroken : T.view (received ++ chunk) = .broken
  · obtain ⟨rfl, herror⟩ := hcontinues.broken hbroken
    refine ⟨_, n, fun fuel hfuel => (hstep fuel hfuel).trans (if_pos rfl), fun _ => ?_,
      fun hne => absurd hbroken hne⟩
    exact ⟨(onlySends_outbound hissued outbound).isOpen hnet, rfl, ht.notOffloaded, tls', rfl, herror⟩
  · have hgrows := hcontinues.delivers hbroken
    have hresult : result ≠ .error := by
      rw [hcontinues.outcome hbroken]
      split <;> exact nofun
    -- the connection once its plaintext is known, before it is parsed
    have hmap : HttpSession.Follows hL E.handler (afterMemoryBio E.preads)
        (Receiving T Sees (received ++ chunk)) w 0
        { sendOutbound tls' outbound s with
          tls := { (sendOutbound tls' outbound s).tls with parsed := s.tls.parsed ++ plaintext } }
        (T.plaintext received) := by
      refine h.follows.map h.goesOn rfl rfl rfl (fun hsends => onlySends_outbound hsends outbound) ?_
      intro i ht
      refine ⟨ht.tlsMode, ht.notOffloaded, ht.preads, ?_, ht.noError, tls', rfl,
        hcontinues.agrees hbroken⟩
      rw [hgrows, ← ht.parsed]
    have hmode : (sendOutbound tls' outbound s).tls.tlsMode = .memoryBio := ht.tlsMode
    have hoff : (sendOutbound tls' outbound s).tls.isKtlsOffloaded = false := ht.notOffloaded
    by_cases hplain : plaintext = []
    · subst hplain
      rw [List.append_nil] at hgrows
      rw [hgrows]
      refine ⟨_, n, fun fuel hfuel => (hstep fuel hfuel).trans ?_, fun hb => absurd hb hbroken,
        fun _ => hmap⟩
      rw [if_neg hresult, onPlaintext_memoryBio hmode hoff, hcontinues.outcome hbroken, if_pos rfl,
        if_neg (by exact nofun), List.append_nil]
      rfl
    · have hestablished : (T.view (received ++ chunk)).state = .established := by
        refine TlsStream.established_of_plaintext hbroken ?_
        rw [hgrows]
        exact List.append_ne_nil_of_right_ne_nil _ hplain
      obtain ⟨s', n', hserve, hfollows⟩ :=
        hmap.serve (replies_memoryBio hssl hlen hestablished) hnet h.goesOn plaintext
      rw [← hgrows] at hfollows
      refine ⟨s', max n n', fun fuel hfuel => (hstep fuel (by omega)).trans ?_,
        fun hb => absurd hb hbroken, fun _ => hfollows⟩
      rw [if_neg hresult, onPlaintext_memoryBio hmode hoff, hcontinues.outcome hbroken, if_neg hplain,
        if_pos rfl]
      exact hserve fuel (by omega)

/-- Nothing behind a reply that closes counts. -/
theorem intended_append_of_closed {received : Bytes} (h : (E.intended hL T w received).2 = none)
    (chunk : Bytes) : E.intended hL T w (received ++ chunk) = E.intended hL T w received := by
  obtain ⟨more, hmore⟩ := T.plaintext_append received chunk
  unfold intended at h ⊢
  rw [hmore]
  exact HttpSession.leadsTo_append_of_closed h more

section Run

variable (hssl : E.ssl.Ideal T Sees)
  (hlen : ∀ request w, (E.handler request w).1.responseHead.length < 2 ^ 31)
  (hnet : ∀ issued, HttpSession.OnlySends issued → E.net issued = true)
include hssl hlen hnet

/-- **Every chunk** leads from a standing to a standing. -/
theorem Stands.onMessage {chunks : List Bytes} {s : HttpsSession P ω S}
    (h : Stands hL T Sees w chunks s) (chunk : Bytes) :
    ∃ s' n, (∀ fuel ≥ n, E.onMessage fuel
          (if s.tls.switched then E.kernelRead chunks.flatten chunk else chunk) s = some s') ∧
      Stands hL T Sees w (chunks ++ [chunk]) s' := by
  have hflatten : (chunks ++ [chunk]).flatten = chunks.flatten ++ chunk := by
    rw [List.flatten_append, List.flatten_singleton]
  cases h with
  | failed hmeets hfailed =>
    exact ⟨s, 0, fun fuel _ => hfailed.onMessage fuel _,
      .failed (meetsInvalid_concat.mpr (.inl hmeets)) hfailed⟩
  | closed hmeets hclosed =>
    refine ⟨s, 0, fun fuel _ => onMessage_closed hclosed.notOpen fuel _, .closed ?_ ?_⟩
    · rw [meetsInvalid_concat]
      rintro (hbefore | hin)
      · exact hmeets hbefore
      · exact hin.2.2 hclosed.ends
    · rw [hflatten]
      have hsame := intended_append_of_closed hclosed.ends chunk
      exact ⟨hsame ▸ hclosed.ends, hsame ▸ hclosed.log, hclosed.notOpen⟩
  | sound hmeets hsound =>
    have hswitched : s.tls.switched = false := by
      obtain ⟨i, ht, -⟩ := hsound.receiving
      obtain ⟨tls, htls, hagrees⟩ := ht.agrees
      simp only [ConnectionTls.switched, htls, hagrees.hasBios, Bool.not_true]
    rw [hswitched, if_neg (by exact nofun)]
    by_cases hchunk : chunk = []
    · rw [hchunk, List.append_nil] at hflatten
      subst hchunk
      refine ⟨s, 0, fun fuel _ => onMessage_nil fuel s, .sound ?_ (hflatten ▸ hsound)⟩
      rw [meetsInvalid_concat]
      rintro (hbefore | ⟨-, hbroken, -⟩)
      · exact hmeets hbefore
      · exact hsound.sound (List.append_nil chunks.flatten ▸ hbroken)
    · obtain ⟨s', n, hrun, hfails, hgoes⟩ := hsound.onMessage hssl hlen hnet hchunk
      refine ⟨s', n, hrun, ?_⟩
      by_cases hbroken : T.view (chunks.flatten ++ chunk) = .broken
      · exact .failed (meetsInvalid_concat.mpr (.inr ⟨hsound.sound, hbroken, hsound.goesOn⟩))
          (hfails hbroken)
      · have hmeets' : ¬ E.MeetsInvalid hL T w (chunks ++ [chunk]) := by
          rw [meetsInvalid_concat]
          rintro (hbefore | hin)
          · exact hmeets hbefore
          · exact hbroken hin.2.1
        have hfollows := hgoes hbroken
        by_cases hends : (E.intended hL T w (chunks.flatten ++ chunk)).2 = none
        · exact .closed hmeets' (hflatten ▸ ⟨hends, hfollows.log, hfollows.closed hends⟩)
        · exact .sound hmeets' (hflatten ▸ ⟨hbroken, hends, hfollows⟩)

/-- **A whole connection.** -/
theorem Stands.receiveAll (more : List Bytes) :
    ∀ {chunks : List Bytes} {s : HttpsSession P ω S}, Stands hL T Sees w chunks s →
      ∃ s' n, (∀ fuel ≥ n, E.receiveAll fuel chunks.flatten s more = some s') ∧
        Stands hL T Sees w (chunks ++ more) s' := by
  induction more with
  | nil =>
    intro chunks s h
    exact ⟨s, 0, fun _ _ => rfl, by rwa [List.append_nil]⟩
  | cons chunk more ih =>
    intro chunks s h
    obtain ⟨s₁, n₁, hrun, hstands⟩ := h.onMessage hssl hlen hnet chunk
    obtain ⟨s', n, hmore, hstands'⟩ := ih hstands
    rw [List.flatten_append, List.flatten_singleton] at hmore
    rw [List.append_assoc, List.singleton_append] at hstands'
    refine ⟨s', max n₁ n, fun fuel hfuel => ?_, hstands'⟩
    simp only [HttpsServer.receiveAll, hrun fuel (by omega)]
    exact hmore fuel (by omega)

end Run

theorem Stands.create (hssl : E.ssl.Ideal T Sees) :
    Stands hL T Sees w [] (E.create w .memoryBio) := by
  have hview : T.view [] = .handshaking [] := TlsStream.view_of_more T.starts
  have hplain : T.plaintext [] = [] := TlsStream.plaintext_of_more T.starts
  have hreceiving : Receiving T Sees [] 0 (.create E.ssl .memoryBio) :=
    ⟨rfl, rfl, rfl, hplain.symm, rfl, _, rfl, .create hssl⟩
  refine .sound ?_ ⟨?_, ?_, ?_⟩
  · rintro ⟨before, chunk, rest, heq, -⟩
    exact absurd heq.symm (by simp)
  · rw [List.flatten_nil, hview]
    exact nofun
  · rw [List.flatten_nil, intended, hplain, HttpSession.leadsTo_nil]
    exact nofun
  · rw [List.flatten_nil, hplain]
    exact .create hL w hreceiving

/-- Nothing is dispatched on a closed connection. -/
theorem receiveAll_closed (chunks : List Bytes) :
    ∀ {s s' : HttpsSession P ω S} {fuel : Nat} {received : Bytes}, E.isOpen s = false →
      E.receiveAll fuel received s chunks = some s' → s'.log = s.log := by
  induction chunks with
  | nil =>
    intro s s' fuel received _ h
    obtain rfl := Option.some.inj h
    rfl
  | cons chunk chunks ih =>
    intro s s' fuel received hclosed h
    simp only [receiveAll, onMessage_closed hclosed] at h
    exact ih hclosed h

theorem Stands.receivesAs_iff {chunks : List Bytes} {s : HttpsSession P ω S}
    (h : Stands hL T Sees w chunks s) :
    E.ReceivesAs hL T w chunks.flatten s ↔ ¬ E.MeetsInvalid hL T w chunks := by
  cases h with
  | failed hmeets hfailed =>
    refine ⟨fun hreceives => ?_, fun hno => absurd hmeets hno⟩
    exact absurd (hfailed.isOpen.symm.trans (hreceives.closed hfailed.readError).1) nofun
  | closed hmeets hclosed =>
    refine ⟨fun _ => hmeets, fun _ => ⟨hclosed.log, fun hopen => ?_, fun _ => ⟨hclosed.notOpen, ?_⟩⟩⟩
    · exact absurd (hopen.symm.trans hclosed.notOpen) nofun
    · exact fun fuel more s' => receiveAll_closed more hclosed.notOpen
  | sound hmeets hsound =>
    obtain ⟨i, ht, -⟩ := hsound.receiving
    refine ⟨fun _ => hmeets, fun _ => ⟨hsound.follows.log, fun _ => ht.parsed, fun herror => ?_⟩⟩
    exact absurd (herror.symm.trans ht.noError) nofun

/-- **A connection receives as its stream says exactly when no invalid record is met**, for every
stream of ciphertext, cut into chunks in any way. -/
theorem reception_iff (hL : E.llhttp.Incremental) (hssl : E.ssl.Ideal T Sees)
    (hlen : ∀ request w, (E.handler request w).1.responseHead.length < 2 ^ 31)
    (hnet : ∀ issued, HttpSession.OnlySends issued → E.net issued = true) (w : ω)
    (chunks : List Bytes) :
    ∃ s n, (∀ fuel ≥ n, E.receiveAll fuel [] (E.create w .memoryBio) chunks = some s) ∧
      (E.ReceivesAs hL T w chunks.flatten s ↔ ¬ E.MeetsInvalid hL T w chunks) := by
  have hcreate : Stands hL T Sees w [] (E.create w .memoryBio) := .create hssl
  obtain ⟨s, n, hs, hstands⟩ := hcreate.receiveAll hssl hlen hnet chunks
  exact ⟨s, n, hs, hstands.receivesAs_iff⟩

/-- A request, and an invalid byte in a chunk of its own. -/
theorem reception_iff_invalidLast :
    let request := HttpSession.getRequest.map Prod.fst
    ∃ s n, (∀ fuel ≥ n, (answeringGet .refused).receiveAll fuel []
        ((answeringGet .refused).create () .memoryBio) [22 :: request, [255]] = some s) ∧
      ((answeringGet .refused).ReceivesAs HttpSession.complete_getRequest.incremental .ofBytes ()
          [22 :: request, [255]].flatten s ↔
        ¬ (answeringGet .refused).MeetsInvalid HttpSession.complete_getRequest.incremental .ofBytes ()
          [22 :: request, [255]]) := by
  intro request
  exact reception_iff HttpSession.complete_getRequest.incremental (OpenSsl.ofStream_ideal .ofBytes)
    (length_answeringGet .refused) (fun _ _ => rfl) () _

/-- **The plaintext in front of an invalid record is lost with the chunk**: the same stream in one
chunk dispatches nothing, in two chunks its request; and either way the connection stays open. -/
theorem invalid_record_drops_plaintext :
    let request := HttpSession.getRequest.map Prod.fst
    let seen := fun chunks => ((answeringGet .refused).receiveAll 100 []
      ((answeringGet .refused).create () .memoryBio) chunks).map
        fun s => (s.log, s.tls.readError, (answeringGet .refused).isOpen s)
    [22 :: request ++ [255]].flatten = [22 :: request, [255]].flatten ∧
      seen [22 :: request ++ [255]] = some ([], true, true) ∧
      seen [22 :: request, [255]] = some ([.dispatched HttpSession.getRoot], true, true) := by
  decide +kernel

end HttpsServer

end Tudou
