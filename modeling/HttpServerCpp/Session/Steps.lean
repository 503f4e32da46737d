import HttpServerCpp.Session.Machine

/-!
# What one step of a session can do

`Session.Step` lists the outcomes of a step, one constructor each, with the condition under which
the step is taken, the state after it and what it outputs.  `step_cases` says that the list is
complete; every invariant is proved by cases on it and `step` is not unfolded again.
`dispatch_eq_handle_iff` says the same of the decision `processRequest` makes.
`run_preserves` carries what the outcomes preserve along a run.
-/

namespace HttpServer

variable {H : Type}

/-- A request that no handler gets is answered with status 400 and a text that says why. -/
lemma Context.dispatch_reject_eq {ctx : Context H} {m : RequestMessage}
    {sessionId requestId : UInt64} {now : Nat} {rsp : HttpResponse}
    (h : ctx.dispatch m sessionId requestId now = .reject rsp) :
    ∃ text, text ≠ "" ∧ rsp = .new .Bad_Request text "text/plain" := by
  unfold dispatch at h
  split at h
  · cases h
    exact ⟨_, by decide, rfl⟩
  · split at h
    · cases h
      exact ⟨_, by decide, rfl⟩
    · split_ifs at h
      cases h
      exact ⟨_, by decide, rfl⟩

lemma Context.dispatch_reject {ctx : Context H} {m : RequestMessage} {sessionId requestId : UInt64}
    {now : Nat} {rsp : HttpResponse}
    (h : ctx.dispatch m sessionId requestId now = .reject rsp) : rsp.status = .Bad_Request := by
  obtain ⟨text, -, rfl⟩ := dispatch_reject_eq h
  rfl

/-- A handler is called with what the parser and the router returned. -/
lemma Context.dispatch_eq_handle_iff {ctx : Context H} {m : RequestMessage}
    {sessionId requestId : UInt64} {now : Nat} {handler : H} {request : HttpRequest} :
    ctx.dispatch m sessionId requestId now = .handle handler request ↔
      ∃ url, ctx.boost.parseOriginForm (originTarget m) = some url ∧
        ctx.router.searchSegments url.segments = some handler ∧
        m.method.toNat ≤ Verb.put.toNat ∧
        request =
          { method := m.method.toMethodType
            sessionId := sessionId
            requestId := requestId
            body := m.body
            segments := url.segments
            headers := assignAll m.fields.lines
            params := assignAll
              (if ctx.opts.autoDecodeUrlParameters then url.params else url.encodedParams)
            requestStartTime := now } := by
  unfold dispatch
  cases hparse : ctx.boost.parseOriginForm (originTarget m) with
  | none => simp
  | some url =>
      cases hsearch : ctx.router.searchSegments url.segments with
      | none => simp [hsearch]
      | some found =>
          by_cases hverb : m.method.toNat > Verb.put.toNat
          · simp [hsearch, hverb]
          · simp only [hsearch, if_neg hverb, Dispatch.handle.injEq, Option.some.injEq,
              exists_eq_left', Nat.le_of_not_lt hverb, true_and, eq_comm]

/-- A handler gets the identifiers of the session and of the request. -/
lemma Context.dispatch_handle {ctx : Context H} {m : RequestMessage} {sessionId requestId : UInt64}
    {now : Nat} {handler : H} {request : HttpRequest}
    (h : ctx.dispatch m sessionId requestId now = .handle handler request) :
    request.sessionId = sessionId ∧ request.requestId = requestId := by
  obtain ⟨url, -, -, -, rfl⟩ := dispatch_eq_handle_iff.mp h
  exact ⟨rfl, rfl⟩

namespace Session

/-- The outcomes of a step. -/
inductive Step (ctx : Context H) (s : Session) : Event → Session → List (Output H) → Prop
  | readEndOfStream (hidle : s.strand = .idle) (hreads : 0 < s.reads) :
      Step ctx s (.onRead .endOfStream) { s with reads := s.reads - 1, isOpen := false }
        [.readEnded]
  | readTimeout (hidle : s.strand = .idle) (hreads : 0 < s.reads) :
      Step ctx s (.onRead .timeout) { s with reads := s.reads - 1, isOpen := false }
        [.readEnded, .inc .readTimeout]
  | readError (hidle : s.strand = .idle) (hreads : 0 < s.reads) :
      Step ctx s (.onRead .error) { s with reads := s.reads - 1, isOpen := false }
        [.readEnded, .inc .readFail]
  | requestRead (received : RequestMessage) (hidle : s.strand = .idle) (hreads : 0 < s.reads) :
      Step ctx s (.onRead (.message received))
        { s with
          reads := s.reads - 1
          request := s.request.readInto received
          strand := .processing
          readCount := s.readCount + 1 }
        [.requestRead received, .inc .readSuccess]
  | rejected (now : Nat) (rsp : HttpResponse) (hprocessing : s.strand = .processing)
      (hdispatch : ctx.dispatch s.request s.id s.currentRequestId now = .reject rsp) :
      Step ctx s (.processRequest now)
        { s.writeResponse ctx rsp with request := s.request.clearBody, strand := .idle }
        [.inc .handleRequest, .dispatched (.reject rsp),
          .writeStarted s.readCount rsp (s.writeResponse ctx rsp).response]
  | called (now : Nat) (handler : H) (request : HttpRequest)
      (hprocessing : s.strand = .processing)
      (hdispatch : ctx.dispatch s.request s.id s.currentRequestId now = .handle handler request) :
      Step ctx s (.processRequest now)
        { s with
          request := s.request.clearBody
          strand := .handling
          writers := s.writers ++ [s.readCount] }
        [.inc .workingHandler, .dispatched (.handle handler request)]
  | handleReturns (hhandling : s.strand = .handling) :
      Step ctx s .handleReturns { s with strand := .returned } [.dec .workingHandler]
  | countHandled (hreturned : s.strand = .returned) :
      Step ctx s .countHandled { s with strand := .idle } [.inc .handleRequest]
  | send (k : Nat) (rsp : HttpResponse) (hk : k ∈ s.writers) :
      Step ctx s (.send k rsp) { s.writeResponse ctx rsp with sent := s.sent ++ [k] }
        [.writeStarted k rsp (s.writeResponse ctx rsp).response]
  | writeDone (i : Nat) (r : WriteResult) (w : PendingWrite) (hw : s.writes[i]? = some w) :
      Step ctx s (.writeDone i r)
        { s with writes := s.writes.eraseIdx i, onWrites := s.onWrites ++ [(w.keepAlive, r)] }
        [.writeEnded w.keepAlive r]
  | writeTimeout (keepAlive : Bool) (rest : List (Bool × WriteResult)) (hidle : s.strand = .idle)
      (hqueue : s.onWrites = (keepAlive, .timeout) :: rest) :
      Step ctx s .onWrite { s with onWrites := rest, isOpen := false } [.inc .writeTimeout]
  | writeError (keepAlive : Bool) (rest : List (Bool × WriteResult)) (hidle : s.strand = .idle)
      (hqueue : s.onWrites = (keepAlive, .error) :: rest) :
      Step ctx s .onWrite { s with onWrites := rest, isOpen := false } [.inc .writeFail]
  | writeClosed (rest : List (Bool × WriteResult)) (hidle : s.strand = .idle)
      (hqueue : s.onWrites = (false, .ok) :: rest) :
      Step ctx s .onWrite { s with onWrites := rest, isOpen := false } [.inc .writeSuccess]
  | writeKept (rest : List (Bool × WriteResult)) (hidle : s.strand = .idle)
      (hqueue : s.onWrites = (true, .ok) :: rest) :
      Step ctx s .onWrite
        (({ s with onWrites := rest, response := s.response.clear.clearBody } : Session).doRead ctx)
        [.inc .writeSuccess, .readStarted (s.currentRequestId + 1)]
  | destroyed (hunowned : s.Unowned) :
      Step ctx s .destroy { s with isOpen := false, alive := false } [.dec .session]

/-- **The list of outcomes is complete**, and only an existing session takes a step. -/
theorem step_cases {ctx : Context H} {s s' : Session} {e : Event} {o : List (Output H)}
    (h : step ctx s e = some (s', o)) : s.alive = true ∧ Step ctx s e s' o := by
  unfold step at h
  split_ifs at h with halive
  refine ⟨halive, ?_⟩
  cases e with
  | onRead r =>
      simp only [stepAlive] at h
      split_ifs at h with hc
      cases r <;> simp only [onRead, Option.some.injEq, Prod.mk.injEq] at h <;>
        obtain ⟨rfl, rfl⟩ := h
      · exact .readEndOfStream hc.1 hc.2
      · exact .readTimeout hc.1 hc.2
      · exact .readError hc.1 hc.2
      · exact .requestRead _ hc.1 hc.2
  | processRequest now =>
      simp only [stepAlive] at h
      split_ifs at h with hc
      simp only [processRequest, Option.some.injEq] at h
      cases hdispatch : ctx.dispatch s.request s.id s.currentRequestId now with
      | reject rsp =>
          simp only [hdispatch, Prod.mk.injEq] at h
          obtain ⟨rfl, rfl⟩ := h
          exact .rejected now rsp hc hdispatch
      | handle handler request =>
          simp only [hdispatch, Prod.mk.injEq] at h
          obtain ⟨rfl, rfl⟩ := h
          exact .called now handler request hc hdispatch
  | handleReturns =>
      simp only [stepAlive] at h
      split_ifs at h with hc
      simp only [Option.some.injEq, Prod.mk.injEq] at h
      obtain ⟨rfl, rfl⟩ := h
      exact .handleReturns hc
  | countHandled =>
      simp only [stepAlive] at h
      split_ifs at h with hc
      simp only [Option.some.injEq, Prod.mk.injEq] at h
      obtain ⟨rfl, rfl⟩ := h
      exact .countHandled hc
  | send k rsp =>
      simp only [stepAlive] at h
      split_ifs at h with hc
      simp only [Option.some.injEq, Prod.mk.injEq] at h
      obtain ⟨rfl, rfl⟩ := h
      exact .send k rsp hc
  | writeDone i r =>
      simp only [stepAlive] at h
      cases hw : s.writes[i]? with
      | none => simp [hw] at h
      | some w =>
          simp only [hw, Option.some.injEq, Prod.mk.injEq] at h
          obtain ⟨rfl, rfl⟩ := h
          exact .writeDone i r w hw
  | onWrite =>
      simp only [stepAlive] at h
      cases hqueue : s.onWrites with
      | nil => simp [hqueue] at h
      | cons head rest =>
          obtain ⟨keepAlive, r⟩ := head
          simp only [hqueue] at h
          split_ifs at h with hc
          cases r with
          | ok =>
              cases keepAlive <;>
                simp only [onWrite, Bool.not_false, Bool.not_true, if_true, if_false,
                  Bool.false_eq_true, Option.some.injEq, Prod.mk.injEq] at h <;>
                obtain ⟨rfl, rfl⟩ := h
              · exact .writeClosed rest hc hqueue
              · exact .writeKept rest hc hqueue
          | timeout =>
              simp only [onWrite, Option.some.injEq, Prod.mk.injEq] at h
              obtain ⟨rfl, rfl⟩ := h
              exact .writeTimeout keepAlive rest hc hqueue
          | error =>
              simp only [onWrite, Option.some.injEq, Prod.mk.injEq] at h
              obtain ⟨rfl, rfl⟩ := h
              exact .writeError keepAlive rest hc hqueue
  | destroy =>
      simp only [stepAlive] at h
      split_ifs at h with hc
      simp only [Option.some.injEq, Prod.mk.injEq] at h
      obtain ⟨rfl, rfl⟩ := h
      exact .destroyed hc

/-- A step of the logged machine. -/
lemma lts_step {ctx : Context H} {t t' : Session × List (Output H)} {e : Event}
    (h : (lts ctx).step t e = some t') :
    ∃ o, t.1.alive = true ∧ Step ctx t.1 e t'.1 o ∧ t'.2 = t.2 ++ o := by
  obtain ⟨o, hstep, hlog⟩ := LTS.logged_step.mp h
  obtain ⟨halive, hcases⟩ := step_cases hstep
  exact ⟨o, halive, hcases, hlog⟩

/-- **The rule for sessions.**  A relation between a session and its log that holds when the
session is started and survives each outcome of a step holds in every run. -/
theorem run_preserves {ctx : Context H} {id : UInt64} {P : Session → List (Output H) → Prop}
    (hinit : P (start ctx id) [.readStarted 1])
    (hpreserve : ∀ s log e s' o, P s log → s.alive = true → Step ctx s e s' o →
      P s' (log ++ o)) :
    ∀ es t, (lts ctx).run (init ctx id) es = some t → P t.1 t.2 := by
  refine LTS.run_induction (P := fun _ (t : Session × List (Output H)) => P t.1 t.2) hinit ?_
  intro es t e t' _ ih hstep
  obtain ⟨o, halive, hcases, hlog⟩ := lts_step hstep
  rw [hlog]
  exact hpreserve t.1 t.2 e t'.1 o ih halive hcases

end Session

end HttpServer
