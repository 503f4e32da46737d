import HttpServerCpp.Message.Codings
import HttpServerCpp.Message.Framing
import HttpServerCpp.Session.Exchange
import HttpServerCpp.Session.InFlight

/-!
# HEAD and GET

A HEAD request asks for the header that the same GET request would get.  The session consults the
method in three places: a GET target has its `|` escaped before it is parsed, methods after PUT are
rejected, and the body of a response to HEAD is left out, before `prepare_payload` computes
`Content-Length` from what is there.

* `Mirrors` is what the two responses should have in common.
* `mirrors_iff` and `mirrors_refusal_iff` compare the messages for one and for two responses.
* `head_mirrors_iff` compares the two exchanges from the request to the written message.
-/

namespace HttpServer

variable {H : Type} {boost : Boost}

/-- The request with another method. -/
def RequestMessage.withMethod (m : RequestMessage) (method : Verb) : RequestMessage :=
  { m with method := method }

/-- Same status, same fields, and no body on the HEAD side. -/
structure Mirrors (head get : ResponseMessage) : Prop where
  status : head.result = get.result
  fields : ∀ name, head.fields.find name = get.fields.find name
  no_body : head.body = ""

/-! ## Messages -/

/-- A decimal number determines the number. -/
lemma toString_inj {n k : Nat} (h : toString n = toString k) : n = k := by
  have hread := congrArg contentLength h
  rwa [contentLength_toString, contentLength_toString, Option.some.injEq] at hread

/-- HEAD adds nothing to the body. -/
lemma body_writeResponseMessage_head (opts : HttpServerOptions) (m : RequestMessage)
    (rsp : HttpResponse) (response : ResponseMessage) :
    (writeResponseMessage boost opts (m.withMethod .head) rsp response).body = response.body :=
  body_writeResponseMessage_of_head opts (m.withMethod .head) rsp response rfl

/-- GET writes the coded body. -/
lemma body_writeResponseMessage_get (opts : HttpServerOptions) (m : RequestMessage)
    (rsp : HttpResponse) :
    (writeResponseMessage boost opts (m.withMethod .get) rsp .fresh).body =
      codedBody boost opts (m.withMethod .get) rsp := by
  have hget : (m.withMethod .get).method ≠ .head := by simp [RequestMessage.withMethod]
  rw [body_writeResponseMessage _ _ _ _ hget]
  exact String.empty_append

/-- The status is the handler's. -/
lemma result_writeResponseMessage (opts : HttpServerOptions) (m : RequestMessage)
    (rsp : HttpResponse) (response : ResponseMessage) :
    (writeResponseMessage boost opts m rsp response).result = rsp.status.toNat := by
  have hset : ∀ (m : ResponseMessage) (name value : String), (m.set name value).result = m.result :=
    fun _ _ _ => rfl
  have hpayload : ∀ m : ResponseMessage, (m.preparePayload boost).result = m.result := by
    intro m
    unfold ResponseMessage.preparePayload
    dsimp only
    split
    · rfl
    · split_ifs <;> rfl
  have hheaded : (headedMessage boost m rsp response).result = rsp.status.toNat := rfl
  rw [writeResponseMessage_eq]
  dsimp only
  split_ifs <;> simp only [hset, hpayload, hheaded]

/-- **One response, both methods**: the header is the same exactly when there is nothing to leave
out. -/
lemma mirrors_iff (hdoc : boost.Documented) (opts : HttpServerOptions) (m : RequestMessage)
    (rsp : HttpResponse) :
    Mirrors (writeResponseMessage boost opts (m.withMethod .head) rsp .fresh)
        (writeResponseMessage boost opts (m.withMethod .get) rsp .fresh) ↔
      rsp.forceGzip = false ∧ rsp.body = "" := by
  rw [← codedBody_eq_empty hdoc opts (m.withMethod .get) rsp]
  by_cases hempty : codedBody boost opts (m.withMethod .get) rsp = ""
  · have hhead : codedBody boost opts (m.withMethod .head) rsp = "" := hempty
    refine ⟨fun _ => hempty, fun _ => ⟨?_, fun name => ?_, body_writeResponseMessage_head _ _ _ _⟩⟩
    · rw [writeResponseMessage_of_empty hdoc hempty, writeResponseMessage_of_empty hdoc hhead]
      rfl
    · rw [writeResponseMessage_of_empty hdoc hempty, writeResponseMessage_of_empty hdoc hhead]
      rfl
  · have hhead : codedBody boost opts (m.withMethod .head) rsp ≠ "" := hempty
    refine ⟨fun h => ?_, fun h => absurd h hempty⟩
    have hlength := h.fields "Content-Length"
    rw [find_contentLength_of_ne_empty hempty, find_contentLength_of_ne_empty hhead,
      body_writeResponseMessage_head, body_writeResponseMessage_get, Option.some.injEq] at hlength
    have hzero := toString_inj hlength
    exact absurd (String.length_eq_zero_iff.mp hzero.symm) hempty

/-- The response of the session to a target that is not valid. -/
def urlInvalid : HttpResponse := .new .Bad_Request "url invalid" "text/plain"

/-- The fields every response starts with, before the user's headers. -/
def commonHeader (boost : Boost) (keep : Bool) (contentType name : String) : Option String :=
  if SameName name "Content-Type" then some contentType
  else (ResponseMessage.fresh.setKeepAlive boost keep).fields.find name

/-- The header of the response is the one that `urlInvalid` gets in answer to HEAD. -/
def MimicsRefusal (boost : Boost) (m : RequestMessage) (rsp : HttpResponse) : Prop :=
  rsp.status = .Bad_Request ∧ ∀ name,
    (if SameName name "Content-Length" then some "0"
      else commonHeader boost (m.keepAlive boost) "text/plain" name) =
    (lastNamed rsp.headers.entries name).or
      (commonHeader boost (!rsp.forceDisableKeepAlive && m.keepAlive boost) rsp.contentType name)

/-- The fields of the response to HEAD with an invalid target. -/
lemma find_urlInvalid (opts : HttpServerOptions) (m : RequestMessage) (name : String) :
    (writeResponseMessage boost opts (m.withMethod .head) urlInvalid .fresh).fields.find name =
      if SameName name "Content-Length" then some "0"
      else commonHeader boost (m.keepAlive boost) "text/plain" name := by
  have hgzips : ¬ gzips opts (m.withMethod .head) urlInvalid := by
    rintro (hforce | hauto)
    · cases hforce
    · exact absurd hauto.1 (by decide)
  have hcoded : codedBody boost opts (m.withMethod .head) urlInvalid = "url invalid" :=
    if_neg hgzips
  have hfields : ∀ name, (headedMessage boost (m.withMethod .head) urlInvalid
      .fresh).fields.find name = commonHeader boost (m.keepAlive boost) "text/plain" name := by
    intro name
    rw [find_headedMessage]
    rfl
  have hte : (headedMessage boost (m.withMethod .head) urlInvalid .fresh).fields.find
      "Transfer-Encoding" = none := by
    rw [hfields, commonHeader, if_neg (by decide),
      ResponseMessage.find_setKeepAlive _ _ (by decide)]
    rfl
  have hbody : (headedMessage boost (m.withMethod .head) urlInvalid .fresh).body = "" := by
    simp [headedMessage, ResponseMessage.fresh]
  have hpayload : writeResponseMessage boost opts (m.withMethod .head) urlInvalid .fresh =
      (headedMessage boost (m.withMethod .head) urlInvalid .fresh).preparePayload boost := by
    rw [writeResponseMessage_eq]
    dsimp only
    rw [if_neg hgzips, hcoded, if_neg (by decide), if_pos (by rfl)]
  rw [hpayload, preparePayload_of_find_none hte, hbody, ResponseMessage.find_set, hfields]
  rfl

/-- **Refused for HEAD only**: nothing the GET request is answered with has the same header, except
an empty response that was given the header of the refusal. -/
lemma mirrors_refusal_iff (hdoc : boost.Documented) (opts : HttpServerOptions) (m : RequestMessage)
    (rsp : HttpResponse) :
    Mirrors (writeResponseMessage boost opts (m.withMethod .head) urlInvalid .fresh)
        (writeResponseMessage boost opts (m.withMethod .get) rsp .fresh) ↔
      (rsp.forceGzip = false ∧ rsp.body = "") ∧ MimicsRefusal boost m rsp := by
  rw [← codedBody_eq_empty hdoc opts (m.withMethod .get) rsp]
  have hstatus : (writeResponseMessage boost opts (m.withMethod .head) urlInvalid .fresh).result =
      400 := result_writeResponseMessage _ _ _ _
  by_cases hempty : codedBody boost opts (m.withMethod .get) rsp = ""
  · have hfields : ∀ name, (writeResponseMessage boost opts (m.withMethod .get) rsp
        .fresh).fields.find name = (lastNamed rsp.headers.entries name).or
          (commonHeader boost (!rsp.forceDisableKeepAlive && m.keepAlive boost) rsp.contentType
            name) := by
      intro name
      rw [writeResponseMessage_of_empty hdoc hempty, find_headedMessage]
      rfl
    constructor
    · rintro ⟨hresult, hsame, -⟩
      rw [hstatus, result_writeResponseMessage] at hresult
      refine ⟨hempty, ?_, fun name => ?_⟩
      · cases hrsp : rsp.status <;> rw [hrsp] at hresult <;> first | rfl | cases hresult
      · rw [← find_urlInvalid opts m name, hsame name, hfields]
    · rintro ⟨-, hbad, hsame⟩
      refine ⟨?_, fun name => ?_, body_writeResponseMessage_head _ _ _ _⟩
      · rw [hstatus, result_writeResponseMessage, hbad]
        rfl
      · rw [find_urlInvalid, hfields, hsame name]
  · refine ⟨fun h => ?_, fun h => absurd h.1 hempty⟩
    have hlength := h.fields "Content-Length"
    rw [find_urlInvalid, if_pos (SameName.refl _), find_contentLength_of_ne_empty hempty,
      body_writeResponseMessage_get, Option.some.injEq] at hlength
    have hzero : 0 = (codedBody boost opts (m.withMethod .get) rsp).length := toString_inj hlength
    exact absurd (String.length_eq_zero_iff.mp hzero.symm) hempty

/-! ## Exchanges -/

/-- The response a dispatched request gets, from the session or from its handler. -/
def Dispatch.reply (answer : H → HttpRequest → HttpResponse) : Dispatch H → HttpResponse
  | .reject rsp => rsp
  | .handle handler request => answer handler request

section Exchanges

variable {ctx : Context H} {answer : H → HttpRequest → HttpResponse} {m : RequestMessage}
  {sessionId requestId : UInt64} {now : Nat}

/-- What the session says itself is never empty. -/
lemma reply_reject {rsp : HttpResponse} (h : ctx.dispatch m sessionId requestId now = .reject rsp) :
    ¬ (rsp.forceGzip = false ∧ rsp.body = "") := by
  obtain ⟨text, htext, rfl⟩ := ctx.dispatch_reject_eq h
  exact fun hempty => htext hempty.2

/-- Without a `|` in the target, a handler that does not look at the method answers both. -/
lemma reply_head (hanswer : ∀ handler request method,
      answer handler { request with method := method } = answer handler request)
    (hpipe : '|' ∉ m.target.toList) :
    (ctx.dispatch (m.withMethod .head) sessionId requestId now).reply answer =
      (ctx.dispatch (m.withMethod .get) sessionId requestId now).reply answer := by
  have htarget : ∀ method, originTarget (m.withMethod method) = m.target :=
    fun method => if_neg fun h => hpipe h.2
  have hhead : ¬ (m.withMethod .head).method.toNat > Verb.put.toNat := by
    show ¬ Verb.head.toNat > Verb.put.toNat
    decide
  have hget : ¬ (m.withMethod .get).method.toNat > Verb.put.toNat := by
    show ¬ Verb.get.toNat > Verb.put.toNat
    decide
  unfold Context.dispatch
  rw [htarget, htarget]
  cases ctx.boost.parseOriginForm m.target with
  | none => rfl
  | some url =>
      cases hsearch : ctx.router.searchSegments url.segments with
      | none => simp only [hsearch]
      | some handler =>
          simp only [hsearch]
          rw [if_neg hhead, if_neg hget]
          exact hanswer handler
            { method := .GET
              sessionId := sessionId
              requestId := requestId
              body := m.body
              segments := url.segments
              headers := assignAll m.fields.lines
              params := assignAll
                (if ctx.opts.autoDecodeUrlParameters then url.params else url.encodedParams)
              requestStartTime := now } .HEAD

/-- With one, the target of the HEAD request is refused. -/
lemma dispatch_head_of_pipe (hparse : ∀ target : String, '|' ∈ target.toList →
      ctx.boost.parseOriginForm target = none) (hpipe : '|' ∈ m.target.toList) :
    ctx.dispatch (m.withMethod .head) sessionId requestId now = .reject urlInvalid := by
  have htarget : originTarget (m.withMethod .head) = m.target := if_neg fun h => nomatch h.1
  unfold Context.dispatch
  rw [htarget, hparse m.target hpipe]
  rfl

end Exchanges

namespace Session

/-- The events of the exchange in which each handler sends what `answer` says. -/
def answered (ctx : Context H) (answer : H → HttpRequest → HttpResponse) (m : RequestMessage)
    (id : UInt64) (now : Nat) : List Event :=
  exchange m now ((ctx.dispatch m id 1 now).reply answer) (ctx.dispatch m id 1 now)

lemma run_answered (ctx : Context H) (answer : H → HttpRequest → HttpResponse) (m : RequestMessage)
    (id : UInt64) (now : Nat) :
    ∃ u, (lts ctx).run (init ctx id) (answered ctx answer m id now) = some u ∧
      writesOf u.2 = [(1, (ctx.dispatch m id 1 now).reply answer,
        writeResponseMessage ctx.boost ctx.opts m ((ctx.dispatch m id 1 now).reply answer)
          .fresh)] := by
  have hown : ∀ rsp', ctx.dispatch m id 1 now = .reject rsp' →
      rsp' = (ctx.dispatch m id 1 now).reply answer := by
    intro rsp' h
    rw [h]
    rfl
  obtain ⟨u, hu, -, hw⟩ := run_exchange rfl hown
  exact ⟨u, hu, hw⟩

/-- **When HEAD mirrors GET.**  Two sessions that differ in the method of their first request,
with handlers that do not look at the method.  The written messages have the same status and the
same fields exactly when the GET request reaches a handler that sends an empty body without forced
gzip and either no `|` in the target keeps the HEAD request from it, or the header it sends is the
one of the refusal that HEAD gets. -/
theorem head_mirrors_iff (ctx : Context H) (hdoc : ctx.boost.Documented)
    (hparse : ∀ target : String, '|' ∈ target.toList → ctx.boost.parseOriginForm target = none)
    (answer : H → HttpRequest → HttpResponse)
    (hanswer : ∀ handler request method,
      answer handler { request with method := method } = answer handler request)
    (m : RequestMessage) (id : UInt64) (now : Nat) :
    ∃ u v rspHead rspGet head get,
      (lts ctx).run (init ctx id) (answered ctx answer (m.withMethod .head) id now) = some u ∧
      (lts ctx).run (init ctx id) (answered ctx answer (m.withMethod .get) id now) = some v ∧
      writesOf u.2 = [(1, rspHead, head)] ∧ writesOf v.2 = [(1, rspGet, get)] ∧
      (Mirrors head get ↔ ∃ handler request,
        ctx.dispatch (m.withMethod .get) id 1 now = .handle handler request ∧
        ((answer handler request).forceGzip = false ∧ (answer handler request).body = "") ∧
        ('|' ∉ m.target.toList ∨ MimicsRefusal ctx.boost m (answer handler request))) := by
  obtain ⟨u, hu, hhead⟩ := run_answered ctx answer (m.withMethod .head) id now
  obtain ⟨v, hv, hget⟩ := run_answered ctx answer (m.withMethod .get) id now
  refine ⟨u, v, _, _, _, _, hu, hv, hhead, hget, ?_⟩
  by_cases hpipe : '|' ∈ m.target.toList
  · rw [dispatch_head_of_pipe hparse hpipe]
    refine (mirrors_refusal_iff hdoc ctx.opts m _).trans ?_
    cases hdispatch : ctx.dispatch (m.withMethod .get) id 1 now with
    | reject rsp => simp [Dispatch.reply, reply_reject hdispatch]
    | handle handler request => simp [Dispatch.reply, hpipe]
  · rw [reply_head hanswer hpipe]
    refine (mirrors_iff hdoc ctx.opts m _).trans ?_
    cases hdispatch : ctx.dispatch (m.withMethod .get) id 1 now with
    | reject rsp => simp [Dispatch.reply, reply_reject hdispatch]
    | handle handler request => simp [Dispatch.reply, hpipe]

/-! ## The plain libraries -/

/-- The plain libraries with a parser that refuses `|`. -/
def strictBoost : Boost :=
  { plainBoost with
    parseOriginForm := fun target =>
      if '|' ∈ target.toList then none else plainBoost.parseOriginForm target }

lemma strictBoost_documented : strictBoost.Documented :=
  ⟨plainBoost_documented.keepAlive_set, plainBoost_documented.keepAlive_unset,
    plainBoost_documented.gzip_ne_empty⟩

/-- A server with a handler for `/hello`. -/
def strictContext : Context Unit := { helloContext with boost := strictBoost }

theorem head_mirrors_iff_hello :
    ∃ u v rspHead rspGet head get,
      (lts strictContext).run (init strictContext 1) (answered strictContext
        (fun _ _ => .new .OK "" "text/plain") ((getRequest "/hello").withMethod .head) 1 0) =
        some u ∧
      (lts strictContext).run (init strictContext 1) (answered strictContext
        (fun _ _ => .new .OK "" "text/plain") ((getRequest "/hello").withMethod .get) 1 0) =
        some v ∧
      writesOf u.2 = [(1, rspHead, head)] ∧ writesOf v.2 = [(1, rspGet, get)] ∧
      Mirrors head get := by
  obtain ⟨u, v, rspHead, rspGet, head, get, hu, hv, hhead, hget, hiff⟩ :=
    head_mirrors_iff strictContext strictBoost_documented (fun target h => if_pos h)
      (fun _ _ => .new .OK "" "text/plain") (fun _ _ _ => rfl) (getRequest "/hello") 1 0
  refine ⟨u, v, rspHead, rspGet, head, get, hu, hv, hhead, hget, hiff.mpr ?_⟩
  exact ⟨(), _, rfl, ⟨rfl, rfl⟩, Or.inl (by decide)⟩

/-- A handler that sends `hello` whatever the method: GET announces five octets, HEAD none. -/
theorem head_contentLength_zero :
    ∃ u v rspHead rspGet head get,
      (lts strictContext).run (init strictContext 1) (answered strictContext
        (fun _ _ => .new .OK "hello" "text/plain") ((getRequest "/hello").withMethod .head) 1 0) =
        some u ∧
      (lts strictContext).run (init strictContext 1) (answered strictContext
        (fun _ _ => .new .OK "hello" "text/plain") ((getRequest "/hello").withMethod .get) 1 0) =
        some v ∧
      writesOf u.2 = [(1, rspHead, head)] ∧ writesOf v.2 = [(1, rspGet, get)] ∧
      head.fields.find "Content-Length" = some "0" ∧
      get.fields.find "Content-Length" = some "5" ∧ ¬ Mirrors head get := by
  refine ⟨_, _, _, _, _, _, rfl, rfl, rfl, rfl, by decide, by decide, fun h => ?_⟩
  exact absurd (h.fields "Content-Length") (by decide)

end Session

end HttpServer
