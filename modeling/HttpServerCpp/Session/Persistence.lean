import HttpServerCpp.Message.Framing
import HttpServerCpp.Session.Ordering

/-!
# Responses on a connection that stays open

When `onWrite` goes on to read, the client has to know where the response just written ends.
`delimits_iff_framed` says for which requests and responses it does, whatever the session went
through before; `framed_of_singleUse` reads that condition for a session whose writers were used
once each, and `empty_body_undelimited` is the response that fails it.
-/

namespace HttpServer

variable {H : Type} {ctx : Context H} {s : Session} {id : UInt64} {es : List Event}
  {t : Session × List (Output H)} {p : Phase}

namespace Session

/-- The `onWrite` of a write, if the write succeeds, reads the next request. -/
def ReadsNext (ctx : Context H) (s : Session) (w : PendingWrite) : Prop :=
  ∃ requestId, .readStarted requestId ∈ (onWrite ctx s w.keepAlive .ok).2

lemma readsNext_iff {w : PendingWrite} : ReadsNext ctx s w ↔ w.keepAlive = true := by
  cases h : w.keepAlive <;> simp [ReadsNext, onWrite, h]

/-- If the session reads on after the write, the message says where it ends. -/
def Delimits (ctx : Context H) (s : Session) (w : PendingWrite) : Prop :=
  ReadsNext ctx s w → SelfDelimited ctx.boost w.message

/-- **When a persistent connection stays in step.**  The write that `writeResponse` starts says
where it ends, or is the last one, exactly when the response is framed. -/
theorem delimits_iff_framed (ctx : Context H) (hdoc : ctx.boost.Documented) (s : Session)
    (rsp : HttpResponse) :
    ∃ w, (s.writeResponse ctx rsp).writes = s.writes ++ [w] ∧
      w.message = (s.writeResponse ctx rsp).response ∧
      ((s.writeResponse ctx rsp).Delimits ctx w ↔ Framed ctx.boost s.request rsp s.response) := by
  refine ⟨_, rfl, rfl, ?_⟩
  rw [Delimits, readsNext_iff, keepAlive_writeResponseMessage hdoc, selfDelimited_iff hdoc, Framed]
  cases keepsAlive ctx.boost s.request rsp <;> simp

/-- A response with a body, on a session that has just been started. -/
theorem delimits_iff_framed_hello :
    ∃ w, ((start helloContext 1).writeResponse helloContext (.new .OK "hello" "text/plain")).writes =
        [w] ∧ Delimits helloContext
          ((start helloContext 1).writeResponse helloContext (.new .OK "hello" "text/plain")) w := by
  obtain ⟨w, hw, -, hiff⟩ := delimits_iff_framed helloContext plainBoost_documented
    (start helloContext 1) (.new .OK "hello" "text/plain")
  exact ⟨w, hw, hiff.mpr (.inr (.inl (by decide)))⟩

/-- A handler answers `GET /hello` with an empty body: the message has neither `Content-Length`
nor `Transfer-Encoding`, and the session reads the next request. -/
theorem empty_body_undelimited :
    ∃ t, (lts helloContext).run (init helloContext 1)
        [.onRead (.message (getRequest "/hello")), .processRequest 0,
          .send 1 (.new .OK "" "text/plain"), .handleReturns, .countHandled,
          .writeDone 0 .ok, .onWrite] = some t ∧
      t.1.reads = 1 ∧ writesOf t.2 =
        [(1, .new .OK "" "text/plain", ⟨200, ⟨[("Content-Type", "text/plain")]⟩, ""⟩)] ∧
      ¬ SelfDelimited helloContext.boost ⟨200, ⟨[("Content-Type", "text/plain")]⟩, ""⟩ := by
  have hlen : Fields.find ⟨[("Content-Type", "text/plain")]⟩ "Content-Length" = none := by decide
  have hte : Fields.find ⟨[("Content-Type", "text/plain")]⟩ "Transfer-Encoding" = none := by decide
  refine ⟨_, rfl, rfl, rfl, ?_⟩
  simp [SelfDelimited, ResponseMessage.chunked, hlen, hte]

/-- A session that has a response to write has a clean `response_` and writes nothing else. -/
lemma Serves.ready (hs : Serves ctx.boost t.1 p) (htally : Phase.tally (observations t.2) p)
    (halive : t.1.alive = true) (hdue : (writesOf t.2).length < (receivedOf t.2).length) :
    t.1.writes = [] ∧ t.1.CleanResponse := by
  rw [length_writesOf, length_receivedOf] at hdue
  cases hs with
  | processing n _ _ _ hwrites _ _ _ _ hclean => exact ⟨hwrites, hclean⟩
  | awaiting n _ _ _ hwrites _ _ _ _ hclean => exact ⟨hwrites, hclean⟩
  | reading n | writing n | written n =>
      obtain ⟨-, h₂, -, h₄, -⟩ := htally
      omega
  | closing | closed => exact absurd htally.2 (Nat.ne_of_lt hdue)
  | destroyed _ _ hdead => simp [halive] at hdead

/-- **What the condition comes to.**  In every state of a run of single use in which a request
waits for its response, only the user's headers can delimit an empty body. -/
theorem framed_of_singleUse (h : (singleUse ctx).run (init ctx id) es = some t)
    (halive : t.1.alive = true) (hdue : (writesOf t.2).length < (receivedOf t.2).length)
    (rsp : HttpResponse) :
    Framed ctx.boost t.1.request rsp t.1.response ↔
      rsp.forceGzip = true ∨ rsp.body ≠ "" ∨
        (∃ value, lastNamed rsp.headers.entries "Content-Length" = some value ∧
          contentLength value = some 0) ∨
        (∃ value, lastNamed rsp.headers.entries "Transfer-Encoding" = some value ∧
          ctx.boost.chunkedValue value = true) ∨
        keepsAlive ctx.boost t.1.request rsp = false := by
  obtain ⟨p, hp, hs⟩ := run_serves es t h
  obtain ⟨-, hclean⟩ := hs.ready (Phase.run_tally _ _ hp) halive hdue
  rw [← framed_clear t.1.request rsp t.1.response, hclean]

end Session

end HttpServer
