import HttpServerCpp.Message.Wire
import HttpServerCpp.Session.Ordering

/-!
# A connection, from the client's side

The client sends requests and reads responses off one stream.  All it knows of the session is the
octets it gets, and the methods of the requests it sent.

* `Succession` is what keeps the responses apart: in every run of single use a response that is not
  kept alive is the last one written.
* `client_reads_responses`: in every state of every such run the client reads, from the octets of
  the writes that were completed, one response for each, and the response with number `j` is the
  one that request `j` and what was sent for it make.  This is about handlers whose responses can
  be read at all: their header lines are `Writable`, and each `Ends` where the client can see it.
-/

namespace HttpServer

variable {H : Type}

/-- The responses whose writes were completed.  Under single use writes end in the order in which
they start. -/
def delivered (log : List (Output H)) : List ResponseMessage :=
  ((writesOf log).take (Phase.completed (observations log))).map fun w => w.2.2

namespace Session

/-! ## Which responses are followed by others -/

/-- Every response written so far is kept alive, except possibly the last; and that one is too
when the session is free to read or to write again. -/
structure Succession (boost : Boost) (s : Session) (log : List (Output H)) : Prop where
  kept : ∀ w ∈ (writesOf log).dropLast, w.2.2.keepAlive boost = true
  free : s.isOpen = true → s.writes = [] → (∀ q ∈ s.onWrites, q.1 = true) →
    ∀ w ∈ writesOf log, w.2.2.keepAlive boost = true
  pending : ∀ w ∈ s.writes, w.keepAlive = w.message.keepAlive boost ∧
    ∃ k rsp, (writesOf log).getLast? = some (k, rsp, w.message)

section Step

variable {ctx : Context H} {s s' : Session} {e : Event} {o log : List (Output H)} {p : Phase}
  {id : UInt64}

/-- A step that starts no write and leaves the outstanding ones as they are. -/
lemma Succession.keep (h : Succession ctx.boost s log) (hlog : writesOf o = [])
    (hwrites : s'.writes = s.writes)
    (hfree : s'.isOpen = true → s.isOpen = true ∧
      ((∀ q ∈ s'.onWrites, q.1 = true) → ∀ q ∈ s.onWrites, q.1 = true)) :
    Succession ctx.boost s' (log ++ o) := by
  constructor
  · simpa [hlog] using h.kept
  · intro hopen hnone hqueue
    obtain ⟨hopen', hqueue'⟩ := hfree hopen
    simpa [hlog] using h.free hopen' (hwrites ▸ hnone) (hqueue' hqueue)
  · simpa [hlog, hwrites] using h.pending

/-- A write is started by a session that is free to do so. -/
lemma Succession.write (h : Succession ctx.boost s log) (hopen : s.isOpen = true)
    (hwrites : s.writes = []) (hqueue : s.onWrites = []) (k : Nat) (rsp : HttpResponse)
    (hlog : writesOf o = [(k, rsp, (s.writeResponse ctx rsp).response)])
    (hstate : s'.writes = (s.writeResponse ctx rsp).writes) :
    Succession ctx.boost s' (log ++ o) := by
  have hpending : s'.writes = [⟨(s.writeResponse ctx rsp).response.keepAlive ctx.boost,
      (s.writeResponse ctx rsp).response⟩] := by
    rw [hstate, writeResponse, doWrite, hwrites]
    rfl
  have hkept := h.free hopen hwrites (by simp [hqueue])
  constructor
  · simpa [hlog] using hkept
  · intro _ hnone
    simp [hpending] at hnone
  · simp [hpending, hlog]

/-- **The step lemma.** -/
lemma Succession.step (h : Succession ctx.boost s log) (hs : Serves ctx.boost s p)
    (halive : s.alive = true) (hsingle : s.SingleUse e) (hstep : Step ctx s e s' o) :
    Succession ctx.boost s' (log ++ o) := by
  cases hstep with
  | readEndOfStream | readTimeout | readError | writeTimeout | writeError | writeClosed
  | destroyed => exact h.keep rfl rfl (by simp)
  | requestRead | called | handleReturns | countHandled =>
      exact h.keep rfl rfl fun hopen => ⟨hopen, fun hqueue => hqueue⟩
  | rejected now rsp hprocessing hdispatch =>
      cases hs with
      | processing n hopen _ _ hwrites hqueue =>
          exact h.write hopen hwrites hqueue s.readCount rsp rfl rfl
      | _ => simp_all
  | send k rsp hk =>
      have hunused : k ∉ s.sent := hsingle
      cases hs with
      | awaiting n hopen _ _ hwrites hqueue => exact h.write hopen hwrites hqueue k rsp rfl rfl
      | destroyed => simp_all
      | _ => exact absurd (List.Perm.mem_iff ‹_› |>.mpr hk) hunused
  | writeDone i r w hw =>
      have hmem : w ∈ s.writes := List.mem_of_getElem? hw
      obtain ⟨hkeep, k, rsp, hlast⟩ := h.pending w hmem
      obtain ⟨front, hfront⟩ := List.getLast?_eq_some_iff.mp hlast
      have hone : s.writes = [w] := by
        cases hs with
        | writing n _ _ _ hwrites =>
            rw [hwrites, List.mem_singleton] at hmem
            rw [hwrites, hmem]
        | _ => simp_all
      constructor
      · simpa [writesOf] using h.kept
      · intro _ _ hqueue
        have hw' : w.keepAlive = true := hqueue (w.keepAlive, r) (by simp)
        have hfrontkept := h.kept
        rw [hfront, List.dropLast_concat] at hfrontkept
        rw [writesOf_append, hfront]
        simp only [writesOf, List.filterMap_cons, List.filterMap_nil, List.append_nil,
          List.mem_append, List.mem_singleton]
        rintro w' (hin | rfl)
        · exact hfrontkept w' hin
        · rw [← hkeep, hw']
      · have hi : i = 0 := by
          rw [hone] at hw
          cases i with
          | zero => rfl
          | succ i => simp at hw
        simp [hone, hi]
  | writeKept rest hidle hqueue =>
      refine h.keep rfl rfl fun hopen => ⟨hopen, fun hrest q hq => ?_⟩
      rw [hqueue, List.mem_cons] at hq
      rcases hq with rfl | hq
      · rfl
      · exact hrest q hq

lemma run_succession : ∀ es t, (singleUse ctx).run (init ctx id) es = some t →
    Succession ctx.boost t.1 t.2 := by
  refine singleUse_preserves (P := Succession ctx.boost) ⟨?_, ?_, ?_⟩ ?_
  · simp [writesOf]
  · simp [writesOf]
  · simp [start, doRead, new]
  · intro s log p e s' o ih hs _ halive hsingle hstep
    exact ih.step hs halive hsingle hstep

end Step

/-! ## Where the responses come from -/

section Responses

variable {ctx : Context H} {id : UInt64} {es : List Event} {t : Session × List (Output H)}

/-- A write is started for a response that a handler sends, or for one of the session's own. -/
lemma sent_step {s s' : Session} {e : Event} {o : List (Output H)} (hstep : Step ctx s e s' o)
    {k : Nat} {rsp : HttpResponse} {message : ResponseMessage}
    (hmem : (k, rsp, message) ∈ writesOf o) :
    e = .send k rsp ∨ ∃ text, text ≠ "" ∧ rsp = .new .Bad_Request text "text/plain" := by
  cases hstep with
  | rejected now rsp' _ hdispatch =>
      simp only [writesOf, List.filterMap_cons, List.filterMap_nil, List.mem_singleton,
        Prod.mk.injEq] at hmem
      obtain ⟨-, rfl, -⟩ := hmem
      exact Or.inr (ctx.dispatch_reject_eq hdispatch)
  | send k' rsp' _ =>
      simp only [writesOf, List.filterMap_cons, List.filterMap_nil, List.mem_singleton,
        Prod.mk.injEq] at hmem
      obtain ⟨rfl, rfl, -⟩ := hmem
      exact Or.inl rfl
  | _ => simp [writesOf] at hmem

lemma run_sent : ∀ es t, (singleUse ctx).run (init ctx id) es = some t →
    ∀ k rsp message, (k, rsp, message) ∈ writesOf t.2 → Event.send k rsp ∈ es ∨
      ∃ text, text ≠ "" ∧ rsp = .new .Bad_Request text "text/plain" := by
  refine LTS.run_induction (P := fun es (t : Session × List (Output H)) =>
    ∀ k rsp message, (k, rsp, message) ∈ writesOf t.2 → Event.send k rsp ∈ es ∨
      ∃ text, text ≠ "" ∧ rsp = .new .Bad_Request text "text/plain") ?_ ?_
  · simp [init, writesOf]
  · intro es t e t' _ ih hstep k rsp message hmem
    obtain ⟨-, hstep⟩ := LTS.restrict_step.mp hstep
    obtain ⟨o, -, hcases, hlog⟩ := lts_step hstep
    rw [hlog, writesOf_append, List.mem_append] at hmem
    rw [List.mem_append, List.mem_singleton]
    rcases hmem with hold | hnew
    · rcases ih k rsp message hold with hsent | hown
      · exact Or.inl (Or.inl hsent)
      · exact Or.inr hown
    · rcases sent_step hcases hnew with hsent | hown
      · exact Or.inl (Or.inr hsent.symm)
      · exact Or.inr hown

/-- The session's own responses can be written, and end. -/
lemma own_writable {text : String} (htext : text ≠ "") (m : RequestMessage) :
    (HttpResponse.new .Bad_Request text "text/plain").Writable ∧
      Ends ctx.boost m (.new .Bad_Request text "text/plain") := by
  have hplain : LegalValue "text/plain" := by decide
  refine ⟨⟨hplain, ?_, rfl⟩, Or.inr (Or.inr (Or.inl htext))⟩
  simp [HttpResponse.new, SortedMap.empty]

/-- The counts of a run: no response without a request, none delivered that was not written. -/
lemma run_counts_le (h : (singleUse ctx).run (init ctx id) es = some t) :
    Phase.completed (observations t.2) ≤ (writesOf t.2).length ∧
      (writesOf t.2).length ≤ (receivedOf t.2).length := by
  obtain ⟨p, hp, -⟩ := run_serves es t h
  have hchain := Phase.chain_of_tally (Phase.run_tally _ _ hp)
  rw [length_writesOf, length_receivedOf]
  exact ⟨hchain.completed_le, hchain.answered_le.trans hchain.dispatches_le⟩

/-- The requests that were answered, each with the write that answers it. -/
def answeredRequests (log : List (Output H)) :
    List (RequestMessage × Nat × HttpResponse × ResponseMessage) :=
  ((receivedOf log).take (Phase.completed (observations log))).zip
    ((writesOf log).take (Phase.completed (observations log)))

/-- An answered request and its write have one number. -/
lemma answeredRequests_split {log : List (Output H)}
    {before after : List (RequestMessage × Nat × HttpResponse × ResponseMessage)}
    {i : RequestMessage × Nat × HttpResponse × ResponseMessage}
    (h : answeredRequests log = before ++ i :: after) :
    (receivedOf log)[before.length]? = some i.1 ∧ (writesOf log)[before.length]? = some i.2 := by
  have hentry : (answeredRequests log)[before.length]? = some i := by
    rw [h, List.getElem?_append_right (le_refl _), Nat.sub_self]
    rfl
  obtain ⟨hreceived, hwrite⟩ := List.getElem?_zip_eq_some.mp hentry
  rw [List.getElem?_take] at hreceived hwrite
  split_ifs at hreceived hwrite
  exact ⟨hreceived, hwrite⟩

/-- What `client_reads_responses` assumes of the handlers' responses holds of all. -/
lemma run_writable (h : (singleUse ctx).run (init ctx id) es = some t)
    (hsends : ∀ k rsp, Event.send k rsp ∈ es → rsp.Writable ∧
      ∀ m, (receivedOf t.2)[k - 1]? = some m → Ends ctx.boost m rsp)
    {j k : Nat} {m : RequestMessage} {rsp : HttpResponse} {message : ResponseMessage}
    (hm : (receivedOf t.2)[j]? = some m) (hw : (writesOf t.2)[j]? = some (k, rsp, message)) :
    rsp.Writable ∧ Ends ctx.boost m rsp := by
  obtain rfl := number_of_write h hw
  rcases run_sent es t h (j + 1) rsp message (List.mem_of_getElem? hw) with
    hsent | ⟨text, htext, rfl⟩
  · obtain ⟨hwritable, hends⟩ := hsends (j + 1) rsp hsent
    exact ⟨hwritable, hends m hm⟩
  · exact own_writable htext m

/-- A response after which the connection is closed is the last. -/
lemma last_of_not_kept (h : (singleUse ctx).run (init ctx id) es = some t)
    {j : Nat} {w : Nat × HttpResponse × ResponseMessage} (hw : (writesOf t.2)[j]? = some w)
    (hclosed : w.2.2.keepAlive ctx.boost = false) : (writesOf t.2).length = j + 1 := by
  obtain ⟨hlt, -⟩ := List.getElem?_eq_some_iff.mp hw
  by_contra hne
  have hmem : w ∈ (writesOf t.2).dropLast := by
    refine @List.mem_of_getElem? _ _ j w ?_
    rw [List.getElem?_dropLast, if_pos (by omega), hw]
  rw [(run_succession es t h).kept w hmem] at hclosed
  cases hclosed

/-- One response is read from what is sent of it and of the ones after it. -/
lemma readMessage_answered (hdoc : ctx.boost.Documented) {reason : Nat → String}
    (hreason : ∀ result, '\r' ∉ (reason result).toList)
    (hconnection : ∀ b, LegalValue (ctx.boost.keepAliveValue "" b))
    (h : (singleUse ctx).run (init ctx id) es = some t) {j k : Nat} {m : RequestMessage}
    {rsp : HttpResponse} {message : ResponseMessage} (hm : (receivedOf t.2)[j]? = some m)
    (hw : (writesOf t.2)[j]? = some (k, rsp, message)) (hwritable : rsp.Writable)
    (hends : Ends ctx.boost m rsp) {left : List Char}
    (hleft : (writesOf t.2).length = j + 1 → left = []) :
    readMessage m.method (serialize reason message ++ left) = some (message, left) := by
  obtain ⟨m', hm', hmessage⟩ := (run_recorded es t h).ledger.written j k rsp message hw
  obtain rfl := Option.some.inj (hm.symm.trans hm')
  obtain ⟨hlegal, hcoding⟩ := fields_writeResponseMessage ctx.opts m hwritable hconnection
  have hwithin := (endsWithin_writeResponseMessage hdoc ctx.opts m rsp).mpr hends
  rw [← hmessage] at hlegal hcoding hwithin
  refine readMessage_serialize (hreason _) hlegal hcoding hwithin fun hclosed _ => hleft ?_
  refine last_of_not_kept h hw ?_
  rw [hmessage, keepAlive_writeResponseMessage hdoc]
  simpa using hclosed

/-- **The client reads the responses.**  In every state of every run in which each writer is used
at most once and what handlers send can be read, let `rest` be what was sent of the response whose
write is in progress, if there is one.  Reading one response for each that was delivered gives
exactly these, and leaves `rest`. -/
theorem client_reads_responses (ctx : Context H) (hdoc : ctx.boost.Documented)
    (reason : Nat → String) (hreason : ∀ result, '\r' ∉ (reason result).toList)
    (hconnection : ∀ b, LegalValue (ctx.boost.keepAliveValue "" b)) (id : UInt64)
    (es : List Event) (t : Session × List (Output H))
    (h : (singleUse ctx).run (init ctx id) es = some t)
    (hsends : ∀ k rsp, Event.send k rsp ∈ es → rsp.Writable ∧
      ∀ m, (receivedOf t.2)[k - 1]? = some m → Ends ctx.boost m rsp)
    (rest : List Char) (hrest : (delivered t.2).length = (writesOf t.2).length → rest = []) :
    readEach readMessage
        (((receivedOf t.2).map (·.method)).take (delivered t.2).length)
        ((delivered t.2).flatMap (serialize reason) ++ rest) = (delivered t.2, rest) ∧
      ∀ (j : Nat) message, (delivered t.2)[j]? = some message → ∃ m rsp,
        (receivedOf t.2)[j]? = some m ∧ (writesOf t.2)[j]? = some (j + 1, rsp, message) ∧
          message = writeResponseMessage ctx.boost ctx.opts m rsp .fresh := by
  obtain ⟨hcompleted, hanswered⟩ := run_counts_le h
  have hlength : (delivered t.2).length = Phase.completed (observations t.2) := by
    rw [delivered, List.length_map, List.length_take]
    omega
  have hcontexts : (answeredRequests t.2).map (fun i => i.1.method) =
      ((receivedOf t.2).map (·.method)).take (delivered t.2).length := by
    have hfst : (answeredRequests t.2).map Prod.fst =
        (receivedOf t.2).take (Phase.completed (observations t.2)) := by
      refine List.map_fst_zip ?_
      simp only [List.length_take]
      omega
    rw [hlength, ← List.map_take, ← hfst, List.map_map]
    rfl
  have hvalues : (answeredRequests t.2).map (fun i => i.2.2.2) = delivered t.2 := by
    have hsnd : (answeredRequests t.2).map Prod.snd =
        (writesOf t.2).take (Phase.completed (observations t.2)) := by
      refine List.map_snd_zip ?_
      simp only [List.length_take]
      omega
    rw [delivered, ← hsnd, List.map_map]
    rfl
  have hcount : (answeredRequests t.2).length = (delivered t.2).length := by
    rw [← hvalues, List.length_map]
  constructor
  · have hread := @readEach_written _ _ _ _ readMessage (fun i => i.1.method) (fun i => i.2.2.2)
      (fun i => serialize reason i.2.2.2) rest (answeredRequests t.2) ?_
    · rwa [hcontexts, hvalues, ← List.flatMap_map, hvalues] at hread
    · rintro before ⟨m, k, rsp, message⟩ after hsplit
      obtain ⟨hm, hw⟩ := answeredRequests_split hsplit
      obtain ⟨hwritable, hends⟩ := run_writable h hsends hm hw
      refine readMessage_answered hdoc hreason hconnection h hm hw hwritable hends fun hlast => ?_
      have hall := congrArg List.length hsplit
      rw [hcount, List.length_append, List.length_cons] at hall
      have hnone : after = [] := List.length_eq_zero_iff.mp (by omega)
      rw [hnone, List.flatMap_nil, List.nil_append]
      exact hrest (by omega)
  · intro j message hj
    rw [delivered, List.getElem?_map, Option.map_eq_some_iff] at hj
    obtain ⟨⟨k, rsp, message'⟩, hw, rfl⟩ := hj
    rw [List.getElem?_take] at hw
    split_ifs at hw
    obtain ⟨m, hm, hmessage⟩ := (run_recorded es t h).ledger.written j k rsp message' hw
    obtain rfl := number_of_write h hw
    exact ⟨m, rsp, hm, hw, hmessage⟩

end Responses

theorem client_reads_responses_hello :
    ∃ t, (singleUse helloContext).run (init helloContext 1) helloExchange = some t ∧
      (delivered t.2).length = 1 ∧
      readEach readMessage [.get] ((delivered t.2).flatMap (serialize fun _ => "OK")) =
        (delivered t.2, []) := by
  have hconnection : ∀ b, LegalValue (helloContext.boost.keepAliveValue "" b) := by decide
  have hreason : '\r' ∉ "OK".toList := by decide
  have hplain : LegalValue "text/plain" := by decide
  have hsends : ∀ k rsp, Event.send k rsp ∈ helloExchange → rsp.Writable ∧
      ∀ m, Ends helloContext.boost m rsp := by
    intro k rsp hmem
    simp only [helloExchange, List.mem_cons, Event.send.injEq, reduceCtorEq, List.not_mem_nil,
      or_false, false_or] at hmem
    obtain ⟨-, rfl⟩ := hmem
    refine ⟨⟨hplain, by simp [HttpResponse.new, SortedMap.empty], rfl⟩, fun m => ?_⟩
    exact Or.inr (Or.inr (Or.inl (by decide)))
  have hrun : ∃ t, (singleUse helloContext).run (init helloContext 1) helloExchange = some t ∧
      (delivered t.2).length = 1 ∧ (receivedOf t.2).map (·.method) = [.get] := ⟨_, rfl, rfl, rfl⟩
  obtain ⟨t, ht, hone, hmethods⟩ := hrun
  have hread := (client_reads_responses helloContext plainBoost_documented (fun _ => "OK")
    (fun _ => hreason) hconnection 1 helloExchange t ht
    (fun k rsp hmem => ⟨(hsends k rsp hmem).1, fun m _ => (hsends k rsp hmem).2 m⟩) []
    fun _ => rfl).1
  rw [hmethods, hone, List.append_nil] at hread
  exact ⟨t, ht, hone, hread⟩

end Session

end HttpServer
