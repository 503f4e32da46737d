import HttpServerCpp.Session.History

/-!
# The first exchange of a session

What a session that has just been started does with the first request it gets, computed step by
step: `run_read`, `run_process` and, when a response is sent at once, `run_exchange`.  Later files
compare other requests, and other sessions, with it.
-/

namespace HttpServer

variable {H : Type}

namespace Session

variable {ctx : Context H} {id : UInt64}

/-- The events of one exchange in a session that has just been started: a request is read and
processed, and if a handler gets it, the handler sends a response. -/
def exchange (m : RequestMessage) (now : Nat) (rsp : HttpResponse) : Dispatch H → List Event
  | .reject _ => [.onRead (.message m), .processRequest now]
  | .handle _ _ => [.onRead (.message m), .processRequest now, .send 1 rsp]

/-- The session that has read its first request, with its log. -/
def firstRead (ctx : Context H) (id : UInt64) (m : RequestMessage) : Session × List (Output H) :=
  ({ start ctx id with reads := 0, request := m, strand := .processing, readCount := 1 },
    [.readStarted 1, .requestRead m, .inc .readSuccess])

lemma run_read (ctx : Context H) (id : UInt64) (m : RequestMessage) (es : List Event) :
    (lts ctx).run (init ctx id) (.onRead (.message m) :: es) =
      (lts ctx).run (firstRead ctx id m) es := by
  have hread : (start ctx id).request.readInto m = m := readInto_clearBody .fresh m
  show (lts ctx).run ({ start ctx id with
      reads := 0
      request := (start ctx id).request.readInto m
      strand := .processing
      readCount := 1 }, _) es = _
  rw [hread]
  rfl

lemma firstRead_process (ctx : Context H) (id : UInt64) (m : RequestMessage) (now : Nat) :
    (lts ctx).run (firstRead ctx id m) [.processRequest now] =
      some (((firstRead ctx id m).1.processRequest ctx now).1,
        (firstRead ctx id m).2 ++ ((firstRead ctx id m).1.processRequest ctx now).2) := rfl

section First

variable {m : RequestMessage} {now : Nat}

/-- The session answers its first request by itself. -/
lemma run_rejected {rsp : HttpResponse} (h : ctx.dispatch m id 1 now = .reject rsp) :
    ∃ u, (lts ctx).run (init ctx id) [.onRead (.message m), .processRequest now] = some u ∧
      dispatchesOf u.2 = [.reject rsp] ∧
      writesOf u.2 = [(1, rsp, writeResponseMessage ctx.boost ctx.opts m rsp .fresh)] := by
  have hprocess : (firstRead ctx id m).1.processRequest ctx now =
      ({ (firstRead ctx id m).1.writeResponse ctx rsp with
          request := m.clearBody
          strand := .idle },
        [.inc .handleRequest, .dispatched (.reject rsp),
          .writeStarted 1 rsp ((firstRead ctx id m).1.writeResponse ctx rsp).response]) := by
    unfold processRequest
    rw [show ctx.dispatch (firstRead ctx id m).1.request (firstRead ctx id m).1.id
      (firstRead ctx id m).1.currentRequestId now = .reject rsp from h]
    rfl
  rw [run_read, firstRead_process, hprocess]
  exact ⟨_, rfl, rfl, rfl⟩

/-- A handler gets the first request, and may answer it. -/
lemma run_called {handler : H} {request : HttpRequest}
    (h : ctx.dispatch m id 1 now = .handle handler request) :
    ∃ u, (lts ctx).run (init ctx id) [.onRead (.message m), .processRequest now] = some u ∧
      dispatchesOf u.2 = [.handle handler request] ∧
      ∀ rsp, ∃ v, (lts ctx).run u [.send 1 rsp] = some v ∧
        dispatchesOf v.2 = [.handle handler request] ∧
        writesOf v.2 = [(1, rsp, writeResponseMessage ctx.boost ctx.opts m rsp .fresh)] := by
  have hprocess : (firstRead ctx id m).1.processRequest ctx now =
      ({ (firstRead ctx id m).1 with
          request := m.clearBody
          strand := .handling
          writers := [1] },
        [.inc .workingHandler, .dispatched (.handle handler request)]) := by
    unfold processRequest
    rw [show ctx.dispatch (firstRead ctx id m).1.request (firstRead ctx id m).1.id
      (firstRead ctx id m).1.currentRequestId now = .handle handler request from h]
    rfl
  rw [run_read, firstRead_process, hprocess]
  exact ⟨_, rfl, rfl, fun rsp => ⟨_, rfl, rfl, rfl⟩⟩

/-- The session takes the way out that the request decides. -/
lemma run_process (ctx : Context H) (id : UInt64) (m : RequestMessage) (now : Nat) :
    ∃ u, (lts ctx).run (init ctx id) [.onRead (.message m), .processRequest now] = some u ∧
      dispatchesOf u.2 = [ctx.dispatch m id 1 now] := by
  cases h : ctx.dispatch m id 1 now with
  | reject rsp =>
      obtain ⟨u, hu, hd, -⟩ := run_rejected h
      exact ⟨u, hu, hd⟩
  | handle handler request =>
      obtain ⟨u, hu, hd, -⟩ := run_called h
      exact ⟨u, hu, hd⟩

/-- The session writes what the request and the response decide. -/
lemma run_exchange {d : Dispatch H} {rsp : HttpResponse} (h : ctx.dispatch m id 1 now = d)
    (hown : ∀ rsp', d = .reject rsp' → rsp' = rsp) :
    ∃ u, (lts ctx).run (init ctx id) (exchange m now rsp d) = some u ∧
      dispatchesOf u.2 = [d] ∧
      writesOf u.2 = [(1, rsp, writeResponseMessage ctx.boost ctx.opts m rsp .fresh)] := by
  cases d with
  | reject rsp' =>
      obtain rfl := hown rsp' rfl
      exact run_rejected h
  | handle handler request =>
      obtain ⟨u, hu, -, hsend⟩ := run_called h
      obtain ⟨v, hv, hd, hw⟩ := hsend rsp
      refine ⟨v, ?_, hd, hw⟩
      show (lts ctx).run (init ctx id) ([.onRead (.message m), .processRequest now] ++
        [.send 1 rsp]) = some v
      rw [LTS.run_append, hu]
      exact hv

end First

end Session

end HttpServer
