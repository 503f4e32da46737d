import HttpServerCpp.Server.Lifetimes
import HttpServerCpp.Session.Exchange
import HttpServerCpp.Session.Ordering

/-!
# Requests on one connection do not see each other

`request_` and `response_` are reused for every request of a session, and every way out of
`processRequest`, together with `onWrite`, has to leave them as a new session would find them.
`Isolated` compares a session, after any history, with sessions that have just been started and
get one of its requests as their first.

* `Session/Exchange.lean` computes what such a session does.
* `isolated_of_singleUse` says that it does the same, up to identifiers, for every request of
  every session of a process, whatever the other sessions do in between.
-/

namespace HttpServer

variable {H : Type}

/-- The same decision in another session. -/
def Dispatch.withIds (sessionId requestId : UInt64) : Dispatch H → Dispatch H
  | .reject rsp => .reject rsp
  | .handle handler request =>
      .handle handler { request with sessionId := sessionId, requestId := requestId }

/-- Only the identifiers of a decision depend on the session. -/
lemma Context.dispatch_withIds (ctx : Context H) (m : RequestMessage)
    (sessionId requestId sessionId' requestId' : UInt64) (now : Nat) :
    (ctx.dispatch m sessionId requestId now).withIds sessionId' requestId' =
      ctx.dispatch m sessionId' requestId' now := by
  unfold dispatch
  cases ctx.boost.parseOriginForm (originTarget m) with
  | none => rfl
  | some url =>
      cases hsearch : ctx.router.searchSegments url.segments with
      | none => simp only [hsearch, Dispatch.withIds]
      | some handler =>
          simp only [hsearch]
          split_ifs <;> rfl

namespace Session

variable {ctx : Context H} {t : Session × List (Output H)} {id : UInt64} {es : List Event}

lemma exchange_withIds (m : RequestMessage) (now : Nat) (rsp : HttpResponse) (d : Dispatch H)
    (sessionId requestId : UInt64) :
    exchange m now rsp (d.withIds sessionId requestId) = exchange m now rsp d := by
  cases d <;> rfl

/-! ## Every request is like a first one -/

/-- A session that has just been started, with any identifier, takes the same decision on each
request this session has dispatched, and writes the same message in answer to it; what is being
written stays as it is. -/
structure Isolated (ctx : Context H) (t : Session × List (Output H)) : Prop where
  dispatched : ∀ (j : Nat) d, (dispatchesOf t.2)[j]? = some d → ∃ m now,
    (receivedOf t.2)[j]? = some m ∧ ∀ id', ∃ u,
      (lts ctx).run (init ctx id') [.onRead (.message m), .processRequest now] = some u ∧
      dispatchesOf u.2 = [d.withIds id' 1]
  written : ∀ (j : Nat) k rsp message, (writesOf t.2)[j]? = some (k, rsp, message) →
    k = j + 1 ∧ ∃ m d now, (receivedOf t.2)[j]? = some m ∧ (dispatchesOf t.2)[j]? = some d ∧
      ∀ id', ∃ u, (lts ctx).run (init ctx id') (exchange m now rsp d) = some u ∧
        dispatchesOf u.2 = [d.withIds id' 1] ∧ writesOf u.2 = [(1, rsp, message)]
  intact : ∀ w ∈ t.1.writes, w.message = t.1.response

/-- **Single use isolates the requests of a session.** -/
theorem isolated_of_run (h : (singleUse ctx).run (init ctx id) es = some t) : Isolated ctx t := by
  obtain ⟨p, hp, -⟩ := run_serves es t h
  have hledger := (run_recorded es t h).ledger
  have hchain := Phase.chain_of_tally (Phase.run_tally _ _ hp)
  refine ⟨?_, ?_, (inFlight_of_singleUse h).intact⟩
  · intro j d hj
    obtain ⟨m, now, hm, rfl⟩ := hledger.dispatched j d hj
    refine ⟨m, now, hm, fun id' => ?_⟩
    rw [ctx.dispatch_withIds]
    exact run_process ctx id' m now
  · intro j k rsp message hj
    have hdispatched : j < (dispatchesOf t.2).length := by
      have hlt := (List.getElem?_eq_some_iff.mp hj).1
      have hle := hchain.answered_le
      rw [← length_writesOf, ← length_dispatchesOf] at hle
      omega
    obtain ⟨d, hd⟩ : ∃ d, (dispatchesOf t.2)[j]? = some d :=
      ⟨_, List.getElem?_eq_getElem hdispatched⟩
    obtain ⟨m, now, hm, hdispatch⟩ := hledger.dispatched j d hd
    obtain ⟨m', hm', hmessage⟩ := hledger.written j k rsp message hj
    obtain rfl := Option.some.inj (hm.symm.trans hm')
    refine ⟨number_of_write h hj, m, d, now, hm, hd, fun id' => ?_⟩
    rw [← exchange_withIds m now rsp d id' 1, hmessage]
    refine run_exchange ?_ ?_
    · rw [hdispatch, ctx.dispatch_withIds]
    · -- the session's own response is the one the request was dispatched to
      intro rsp' hreject
      have hown : d = .reject rsp' := by
        cases d with
        | reject _ => exact hreject
        | handle _ _ => cases hreject
      obtain ⟨k', message', hwrite⟩ := hledger.rejected j rsp' (hd.trans (congrArg some hown))
      have hentry := Option.some.inj (hwrite.symm.trans hj)
      exact congrArg (fun entry => entry.2.1) hentry

end Session

namespace Process

/-- **Requests on one connection do not see each other**: in every run of single use, for every
session of every server. -/
theorem isolated_of_singleUse (boost : Boost) (servers : List (HttpServerOptions × HttpRouter H))
    (es : List ProcessEvent) (p : Process H)
    (h : ((lts boost).restrict fun p e => p.singleUse e = true).run (start servers) es = some p)
    (i : Nat) (srv : Server H) (hsrv : p.servers[i]? = some srv) :
    ∀ t ∈ srv.sessions, Session.Isolated (srv.ctx boost) t := by
  intro t ht
  obtain ⟨es', hes'⟩ := run_sessions (fun _ _ hsingle => hsingle) h hsrv t ht
  exact Session.isolated_of_run hes'

end Process

/-- On one connection `GET /hello` is answered by its handler, `GET /nothing` by the session, and
`GET /hello` by the handler again. -/
def keptAlive : List ProcessEvent :=
  [⟨0, .run {}⟩, ⟨0, .acceptDone .connection⟩, ⟨0, .onAccept⟩] ++
    (helloExchange ++ later).map fun e => ⟨0, .session 0 e⟩
where
  later : List Event :=
    [.onRead (.message (getRequest "/nothing")), .processRequest 0, .writeDone 0 .ok, .onWrite,
      .onRead (.message (getRequest "/hello")), .processRequest 0,
      .send 3 (.new .OK "hello" "text/plain")]

namespace Process

theorem isolated_of_singleUse_hello :
    ∃ p srv, ((lts plainBoost).restrict fun p e => p.singleUse e = true).run
        (start helloServers) keptAlive = some p ∧ p.servers[0]? = some srv ∧
      ∀ t ∈ srv.sessions, Session.Isolated (srv.ctx plainBoost) t :=
  ⟨_, _, rfl, rfl, isolated_of_singleUse plainBoost helloServers keptAlive _ rfl 0 _ rfl⟩

end Process

end HttpServer
