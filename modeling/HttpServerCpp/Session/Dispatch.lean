import HttpServerCpp.Session.InFlight

/-!
# Which requests reach a handler

A call of `processRequest` from its first step to its return, with whatever other threads do to
the session in between, and what it decides.

* `call_cases`: a call either rejects, with one response of its own, or calls one handler.
* `dispatchesExactly_iff`: the requests that reach a handler are those with a valid target, a
  registered handler and one of the five supported methods, except that a token that is no
  method at all passes too: its verb has the number zero, and the check is for numbers above
  that of `put`.
-/

namespace HttpServer

variable {H : Type} {ctx : Context H}

/-! ## What is decided -/

/-- The handler that the router returns for the path of a target, if there is one. -/
def Context.found (ctx : Context H) (request : RequestMessage) : Option H :=
  (ctx.boost.parseOriginForm (originTarget request)).bind fun url =>
    ctx.router.searchSegments url.segments

lemma Context.handles_iff {m : RequestMessage} {sessionId requestId : UInt64} {now : Nat}
    {handler : H} :
    (∃ request, ctx.dispatch m sessionId requestId now = .handle handler request) ↔
      ctx.found m = some handler ∧ m.method.toNat ≤ Verb.put.toNat := by
  simp only [dispatch_eq_handle_iff, found, Option.bind_eq_some_iff]
  constructor
  · rintro ⟨request, url, hparse, hsearch, hverb, -⟩
    exact ⟨⟨url, hparse, hsearch⟩, hverb⟩
  · rintro ⟨⟨url, hparse, hsearch⟩, hverb⟩
    exact ⟨_, url, hparse, hsearch, hverb, rfl⟩

/-! ## A call -/

/-- The handlers called. -/
def handlersCalled (log : List (Output H)) : List H :=
  log.filterMap fun
    | .dispatched (.handle handler _) => some handler
    | _ => none

/-- The responses handed to `writeResponse`. -/
def responsesWritten (log : List (Output H)) : List HttpResponse :=
  log.filterMap fun
    | .writeStarted _ rsp _ => some rsp
    | _ => none

/-- How often `handle_request_cnt_` was incremented. -/
def requestsCounted (log : List (Output H)) : Nat :=
  log.countP fun
    | .inc .handleRequest => true
    | _ => false

namespace Session

/-- The steps of a session from a moment within `processRequest` to its return. -/
inductive Returns (ctx : Context H) : Session → List (Output H) → Session → Prop
  | done (s : Session) (hidle : s.strand = .idle) : Returns ctx s [] s
  | step (s : Session) (e : Event) (s' : Session) (o log : List (Output H)) (t : Session)
      (hbusy : s.strand ≠ .idle) (hstep : Session.step ctx s e = some (s', o))
      (hrest : Returns ctx s' log t) : Returns ctx s (o ++ log) t

/-- A call of `processRequest`: its own first step, and the steps to its return. -/
def Calls (ctx : Context H) (s : Session) (now : Nat) (log : List (Output H)) (t : Session) :
    Prop :=
  ∃ s' o rest, step ctx s (.processRequest now) = some (s', o) ∧ Returns ctx s' rest t ∧
    log = o ++ rest

/-- Once the handler is called, no other is, the request is counted once, and it stays as it
is. -/
lemma returns_handling {s t : Session} {log : List (Output H)} (h : Returns ctx s log t) :
    s.strand = .handling ∨ s.strand = .returned →
      handlersCalled log = [] ∧ requestsCounted log = 1 ∧ t.request = s.request := by
  induction h with
  | done s hidle => simp [hidle]
  | step s e s' o log t hbusy hstep hrest ih =>
      intro hstrand
      obtain ⟨-, houtcome⟩ := step_cases hstep
      have hnot : s.strand ≠ .processing := by rcases hstrand with h | h <;> simp [h]
      cases houtcome with
      | handleReturns => exact ih (Or.inr rfl)
      | countHandled =>
          cases hrest with
          | done => exact ⟨rfl, rfl, rfl⟩
          | step _ _ _ _ _ _ hbusy' => exact absurd rfl hbusy'
      | send k rsp hk => exact ih hstrand
      | writeDone i r w hw => exact ih hstrand
      | destroyed hunowned => exact absurd hunowned.1 hbusy
      | rejected _ _ hprocessing | called _ _ _ hprocessing => exact absurd hprocessing hnot
      | readEndOfStream hidle | readTimeout hidle | readError hidle | requestRead _ hidle
      | writeTimeout _ _ hidle | writeError _ _ hidle | writeClosed _ hidle
      | writeKept _ hidle => exact absurd hidle hbusy

/-- **The two kinds of call**: a rejection with one response, or one handler. -/
theorem call_cases {s t : Session} {now : Nat} {log : List (Output H)}
    (h : Calls ctx s now log t) :
    ((∃ rsp, ctx.dispatch s.request s.id s.currentRequestId now = .reject rsp ∧
        handlersCalled log = [] ∧ responsesWritten log = [rsp]) ∨
      ∃ handler request,
        ctx.dispatch s.request s.id s.currentRequestId now = .handle handler request ∧
        handlersCalled log = [handler]) ∧
    requestsCounted log = 1 ∧ t.request.body = "" := by
  obtain ⟨s', o, rest, hstep, hreturns, rfl⟩ := h
  obtain ⟨-, houtcome⟩ := step_cases hstep
  cases houtcome with
  | rejected _ rsp _ hdispatch =>
      cases hreturns with
      | done => exact ⟨Or.inl ⟨rsp, hdispatch, rfl, rfl⟩, rfl, rfl⟩
      | step _ _ _ _ _ _ hbusy => exact absurd rfl hbusy
  | called _ handler request _ hdispatch =>
      obtain ⟨hcalled, hcounted, hrequest⟩ := returns_handling hreturns (Or.inl rfl)
      refine ⟨Or.inr ⟨handler, request, hdispatch, ?_⟩, hcounted, ?_⟩
      · exact congrArg (handler :: ·) hcalled
      · rw [hrequest]
        rfl

/-- A handler that returns lets the call return. -/
lemma exists_returns {s : Session} (halive : s.alive = true) (hhandling : s.strand = .handling) :
    ∃ log t, Returns ctx s log t := by
  have hreturn : step ctx s .handleReturns =
      some ({ s with strand := .returned }, [.dec .workingHandler]) := by
    simp [step, stepAlive, halive, hhandling]
  have hcount : step ctx { s with strand := .returned } .countHandled =
      some ({ s with strand := .idle }, [.inc .handleRequest]) := by
    simp [step, stepAlive, halive]
  have hdone : Returns ctx { s with strand := .idle } [] { s with strand := .idle } := .done _ rfl
  exact ⟨_, _, .step _ _ _ _ _ _ (by simp [hhandling]) hreturn
    (.step _ _ _ _ _ _ (by simp) hcount hdone)⟩

/-- Every call can return. -/
lemma exists_call {s : Session} (halive : s.alive = true) (hprocessing : s.strand = .processing)
    (now : Nat) : ∃ log t, Calls ctx s now log t := by
  have hstep : step ctx s (.processRequest now) = some (s.processRequest ctx now) := by
    simp [step, halive, stepAlive, hprocessing]
  have hreturns : ∃ log t, Returns ctx (s.processRequest ctx now).1 log t := by
    cases hdispatch : ctx.dispatch s.request s.id s.currentRequestId now with
    | reject rsp => exact ⟨[], _, .done _ (by simp [processRequest, hdispatch])⟩
    | handle handler request =>
        exact exists_returns (by simp [processRequest, hdispatch, halive])
          (by simp [processRequest, hdispatch])
  obtain ⟨rest, t, hrest⟩ := hreturns
  exact ⟨_, t, _, _, rest, hstep, hrest, rfl⟩

end Session

/-! ## Exactness -/

/-- What Beast promises about method tokens: the five supported ones have a verb of their own. -/
structure RecognisesTokens (stringToVerb : String → Verb) : Prop where
  delete : ∀ token, stringToVerb token = .delete ↔ token = "DELETE"
  get : ∀ token, stringToVerb token = .get ↔ token = "GET"
  head : ∀ token, stringToVerb token = .head ↔ token = "HEAD"
  post : ∀ token, stringToVerb token = .post ↔ token = "POST"
  put : ∀ token, stringToVerb token = .put ↔ token = "PUT"

/-- The tokens of the supported methods. -/
def supportedTokens : List String := ["DELETE", "GET", "HEAD", "POST", "PUT"]

/-- The check on the number of a verb admits the supported methods, and `unknown`. -/
lemma RecognisesTokens.supported_iff {stringToVerb : String → Verb}
    (h : RecognisesTokens stringToVerb) (token : String) :
    token ∈ supportedTokens ↔
      (stringToVerb token).toNat ≤ Verb.put.toNat ∧ stringToVerb token ≠ .unknown := by
  have htokens : token ∈ supportedTokens ↔ stringToVerb token = .delete ∨
      stringToVerb token = .get ∨ stringToVerb token = .head ∨ stringToVerb token = .post ∨
      stringToVerb token = .put := by
    rw [h.delete, h.get, h.head, h.post, h.put]
    simp [supportedTokens]
  rw [htokens]
  cases stringToVerb token <;> simp [Verb.toNat]
  omega

namespace Session

/-- A call of `processRequest` can return, and every one that does calls a handler, once, exactly
when the target is valid, the router has a handler for it and the method token is supported; in
every other case it hands one response with status 400 to `writeResponse`.  The request is counted
once and its body is cleared. -/
def DispatchesExactly (ctx : Context H) (token : String) (s : Session) : Prop :=
  ∀ now, (∃ log t, Calls ctx s now log t) ∧
    ∀ log t, Calls ctx s now log t →
      (∀ handler, handlersCalled log = [handler] ↔
        ctx.found s.request = some handler ∧ token ∈ supportedTokens) ∧
      (¬ ((ctx.found s.request).isSome ∧ token ∈ supportedTokens) →
        handlersCalled log = [] ∧
          ∃ rsp, responsesWritten log = [rsp] ∧ rsp.status = .Bad_Request) ∧
      requestsCounted log = 1 ∧ t.request.body = ""

/-- **Dispatch is exact, except for unknown methods.**  It is exact for a request that was read
with any method token exactly when the parser knows the token, or no handler is found anyway. -/
theorem dispatchesExactly_iff (ctx : Context H) (stringToVerb : String → Verb)
    (hbeast : RecognisesTokens stringToVerb) (token : String) (s : Session)
    (halive : s.alive = true) (hprocessing : s.strand = .processing)
    (htoken : s.request.method = stringToVerb token) :
    DispatchesExactly ctx token s ↔
      stringToVerb token ≠ .unknown ∨ ctx.found s.request = none := by
  have hsupported := hbeast.supported_iff token
  constructor
  · intro h
    by_contra hnot
    obtain ⟨hunknown, hfound⟩ := not_or.mp hnot
    rw [not_not] at hunknown
    obtain ⟨handler, hhandler⟩ := Option.ne_none_iff_exists'.mp hfound
    obtain ⟨⟨log, t, hcall⟩, hexact⟩ := h 0
    obtain ⟨hcalled, -⟩ := hexact log t hcall
    -- the number of `unknown` is below that of `put`, so the handler is called
    have hhandles : ∃ r, ctx.dispatch s.request s.id s.currentRequestId 0 = .handle handler r :=
      Context.handles_iff.mpr ⟨hhandler, by rw [htoken, hunknown]; decide⟩
    obtain ⟨r, hdispatch⟩ := hhandles
    rcases (call_cases hcall).1 with ⟨rsp, hreject, -⟩ | ⟨handler', r', hhandle, hlog⟩
    · simp [hdispatch] at hreject
    · exact absurd hunknown ((hsupported.mp ((hcalled handler').mp hlog).2).2)
  · intro hcondition now
    have hsame : ∀ handler, (ctx.found s.request = some handler ∧ token ∈ supportedTokens) ↔
        ∃ r, ctx.dispatch s.request s.id s.currentRequestId now = .handle handler r := by
      intro handler
      rw [Context.handles_iff, hsupported, htoken]
      rcases hcondition with hknown | hnone
      · simp [hknown]
      · simp [hnone]
    refine ⟨exists_call halive hprocessing now, fun log t hcall => ?_⟩
    obtain ⟨hcases, hcounted, hbody⟩ := call_cases hcall
    refine ⟨fun handler => ?_, fun hother => ?_, hcounted, hbody⟩
    · rw [hsame]
      rcases hcases with ⟨rsp, hreject, hlog, -⟩ | ⟨handler', r, hhandle, hlog⟩
      · simp [hreject, hlog]
      · simp [hhandle, hlog]
    · rcases hcases with ⟨rsp, hreject, hlog, hwritten⟩ | ⟨handler, r, hhandle, -⟩
      · exact ⟨hlog, rsp, hwritten, Context.dispatch_reject hreject⟩
      · obtain ⟨hfound, hmember⟩ := (hsame handler).mpr ⟨r, hhandle⟩
        exact absurd ⟨by rw [hfound]; rfl, hmember⟩ hother

end Session

/-- A verb for each supported token, and none for any other. -/
def plainVerb (token : String) : Verb :=
  if token = "DELETE" then .delete
  else if token = "GET" then .get
  else if token = "HEAD" then .head
  else if token = "POST" then .post
  else if token = "PUT" then .put
  else .unknown

lemma plainVerb_recognisesTokens : RecognisesTokens plainVerb := by
  constructor <;> intro token <;> unfold plainVerb <;> split_ifs <;> simp_all

namespace Session

/-- `GET /hello`. -/
theorem dispatchesExactly_iff_hello :
    ∃ t, (lts helloContext).run (init helloContext 1) [.onRead (.message (getRequest "/hello"))] =
        some t ∧ DispatchesExactly helloContext "GET" t.1 :=
  ⟨_, rfl, (dispatchesExactly_iff helloContext plainVerb plainVerb_recognisesTokens "GET" _ rfl rfl
    (by decide)).mpr (Or.inl (by decide))⟩

/-- `BREW /hello` is no method of HTTP, and its handler is called. -/
theorem unknown_method_handled :
    ∃ t log t', plainVerb "BREW" = .unknown ∧ "BREW" ∉ supportedTokens ∧
      (lts helloContext).run (init helloContext 1)
        [.onRead (.message ⟨plainVerb "BREW", "/hello", 11, .empty, ""⟩)] = some t ∧
      Calls helloContext t.1 0 log t' ∧ handlersCalled log = [()] ∧ responsesWritten log = [] ∧
      ¬ DispatchesExactly helloContext "BREW" t.1 := by
  have hcall : ∀ t : Session × List (Output Unit), (lts helloContext).run (init helloContext 1)
      [.onRead (.message ⟨plainVerb "BREW", "/hello", 11, .empty, ""⟩)] = some t →
      ∃ log t', Calls helloContext t.1 0 log t' ∧ handlersCalled log = [()] ∧
        responsesWritten log = [] := by
    rintro t ⟨⟩
    exact ⟨_, _, ⟨_, _, _, rfl, .step _ .handleReturns _ _ _ _ (by decide) rfl
      (.step _ .countHandled _ _ _ _ (by decide) rfl (.done _ rfl)), rfl⟩, rfl, rfl⟩
  obtain ⟨log, t', hcalls, hcalled, hwritten⟩ := hcall _ rfl
  refine ⟨_, log, t', by decide, by decide, rfl, hcalls, hcalled, hwritten, fun h => ?_⟩
  exact absurd (((h 0).2 log t' hcalls).1 () |>.mp hcalled).2 (by decide)

end Session

end HttpServer
