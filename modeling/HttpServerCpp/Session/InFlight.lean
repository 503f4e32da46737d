import HttpServerCpp.Session.Steps

/-!
# Operations in flight

A session may have one operation on its stream at a time.  `Session.commitments` counts what it
has started and what it is bound to start without another call of `send`: outstanding reads and
writes, completed writes whose `onWrite` goes on to read, and a request that `processRequest` is
about to answer by itself.

A `send` adds one commitment and every other step keeps their number or lowers it.  So the bound
one is kept as long as `send` is called only when the session is committed to nothing, and then
the operations never overlap and `response_` stays as it is while it is written.
-/

namespace HttpServer

variable {H : Type}

/-- Whether `processRequest` answers the request by itself. -/
def Dispatch.isReject : Dispatch H → Bool
  | .reject _ => true
  | .handle _ _ => false

/-- Whether `processRequest` will answer this request by itself. -/
def Context.refuses (ctx : Context H) (request : RequestMessage) : Bool :=
  (ctx.dispatch request 0 0 0).isReject

/-- Neither the identifiers nor the time have a say in it. -/
lemma Context.isReject_dispatch (ctx : Context H) (request : RequestMessage)
    (sessionId requestId : UInt64) (now : Nat) :
    (ctx.dispatch request sessionId requestId now).isReject = ctx.refuses request := by
  unfold refuses dispatch
  split
  · rfl
  · split
    · rfl
    · split_ifs <;> rfl

namespace Session

variable (ctx : Context H)

/-- A completed write whose `onWrite` reads the next request. -/
def readsOn (w : Bool × WriteResult) : Bool := w.1 && w.2 = .ok

/-- A request was read that `processRequest` will answer by itself. -/
def owes (s : Session) : Bool := s.strand = .processing && ctx.refuses s.request

/-- What the session has started or is bound to start. -/
def commitments (s : Session) : Nat :=
  s.reads + s.writes.length + s.onWrites.countP readsOn + (s.owes ctx).toNat

/-- `send` is called only while the session is committed to nothing. -/
def Unobstructed (s : Session) : Event → Prop
  | .send _ _ => s.commitments ctx = 0
  | _ => True

instance (s : Session) : ∀ e, Decidable (s.Unobstructed ctx e)
  | .send _ _ => inferInstanceAs (Decidable (s.commitments ctx = 0))
  | .onRead _ | .processRequest _ | .handleReturns | .countHandled | .writeDone _ _ | .onWrite
  | .destroy => .isTrue trivial

/-- At most one operation is outstanding, and what is being written is `response_`. -/
structure InFlight (s : Session) : Prop where
  writes_le : s.writes.length ≤ 1
  reads_le : s.reads ≤ 1
  exclusive : ¬ (0 < s.reads ∧ 0 < s.writes.length)
  intact : ∀ w ∈ s.writes, w.message = s.response

/-- The invariant: at most one commitment, and what is being written is `response_`. -/
structure Committed (s : Session) : Prop where
  commitments_le : s.commitments ctx ≤ 1
  intact : ∀ w ∈ s.writes, w.message = s.response

variable {ctx} {s s' : Session} {e : Event} {o : List (Output H)}

lemma Committed.inFlight (hs : s.Committed ctx) : s.InFlight := by
  have hle := hs.commitments_le
  unfold commitments at hle
  exact ⟨by omega, by omega, by omega, hs.intact⟩

/-- Starting the write of a response commits the session once more. -/
lemma commitments_writeResponse (ctx : Context H) (s : Session) (rsp : HttpResponse) :
    (s.writeResponse ctx rsp).commitments ctx = s.commitments ctx + 1 := by
  have howes : (s.writeResponse ctx rsp).owes ctx = s.owes ctx := rfl
  simp only [commitments, howes]
  simp only [writeResponse, doWrite, List.length_append, List.length_singleton]
  omega

/-- A write that starts while no other is outstanding writes `response_`. -/
lemma intact_writeResponse (hs : s.writes = []) (rsp : HttpResponse) :
    ∀ w ∈ (s.writeResponse ctx rsp).writes, w.message = (s.writeResponse ctx rsp).response := by
  intro w hw
  simp only [writeResponse, doWrite, hs, List.nil_append, List.mem_singleton] at hw
  rw [hw]
  rfl

/-- A strand that is not about to process owes nothing. -/
lemma owes_eq_false (h : s.strand ≠ .processing) : s.owes ctx = false := by
  simp [owes, h]

/-- A request that `processRequest` answers by itself was owed that answer. -/
lemma owes_of_reject {now : Nat} {rsp : HttpResponse} (hprocessing : s.strand = .processing)
    (hdispatch : ctx.dispatch s.request s.id s.currentRequestId now = .reject rsp) :
    s.owes ctx = true := by
  have hrefused : ctx.refuses s.request = true := by
    rw [← ctx.isReject_dispatch s.request s.id s.currentRequestId now, hdispatch]
    rfl
  simp [owes, hprocessing, hrefused]

/-- The number of commitments after a step. -/
lemma commitments_step (hfree : s.Unobstructed ctx e) (hs : s.commitments ctx ≤ 1)
    (hstep : Step ctx s e s' o) : s'.commitments ctx ≤ 1 := by
  cases hstep with
  | requestRead received hidle hreads =>
      have hone := Bool.toNat_le (owes ctx
        { s with
          reads := s.reads - 1
          request := s.request.readInto received
          strand := .processing
          readCount := s.readCount + 1 })
      simp only [commitments] at hs ⊢
      omega
  | rejected now rsp hprocessing hdispatch =>
      have howed : (s.owes ctx).toNat = 1 := by rw [owes_of_reject hprocessing hdispatch]; rfl
      simp only [commitments, owes_eq_false, ne_eq, reduceCtorEq, not_false_eq_true, howed,
        Bool.toNat_false] at hs ⊢
      simp only [writeResponse, doWrite, List.length_append, List.length_singleton]
      omega
  | send k rsp hk =>
      have hone := commitments_writeResponse ctx s rsp
      rw [show s.commitments ctx = 0 from hfree] at hone
      exact Nat.le_of_eq hone
  | writeDone i r w hw =>
      have hlen := List.length_eraseIdx_add_one (List.getElem?_eq_some_iff.mp hw).1
      have hcount : [(w.keepAlive, r)].countP readsOn ≤ 1 := List.countP_le_length
      simp only [commitments, List.countP_append, owes] at hs ⊢
      omega
  | writeKept rest hidle hqueue =>
      have hkept : readsOn (true, .ok) = true := rfl
      simp only [commitments, doRead, owes_eq_false, hidle, ne_eq, reduceCtorEq,
        not_false_eq_true, hqueue, List.countP_cons, hkept, if_true] at hs ⊢
      omega
  | writeTimeout keepAlive rest hidle hqueue =>
      simp only [commitments, owes, hqueue, List.countP_cons] at hs ⊢
      omega
  | writeError keepAlive rest hidle hqueue =>
      simp only [commitments, owes, hqueue, List.countP_cons] at hs ⊢
      omega
  | writeClosed rest hidle hqueue =>
      simp only [commitments, owes, hqueue, List.countP_cons] at hs ⊢
      omega
  | readEndOfStream | readTimeout | readError | destroyed =>
      simp only [commitments, owes] at hs ⊢
      omega
  | called | handleReturns | countHandled =>
      simp only [commitments, owes_eq_false, ne_eq, reduceCtorEq, not_false_eq_true,
        Bool.toNat_false] at hs ⊢
      omega

/-- While a write is outstanding no step assembles or clears `response_`, or starts another. -/
lemma undisturbed_step (hfree : s.Unobstructed ctx e) (hs : s.commitments ctx ≤ 1)
    (hstep : Step ctx s e s' o) (hwriting : s.writes ≠ []) :
    s'.response = s.response ∧ ∀ w ∈ s'.writes, w ∈ s.writes := by
  have hpos : 0 < s.writes.length := List.length_pos_iff.mpr hwriting
  cases hstep with
  | rejected now rsp hprocessing hdispatch =>
      simp only [commitments, owes_of_reject hprocessing hdispatch, Bool.toNat_true] at hs
      omega
  | send k rsp hk =>
      have hzero : s.commitments ctx = 0 := hfree
      unfold commitments at hzero
      omega
  | writeKept rest hidle hqueue =>
      have hkept : readsOn (true, .ok) = true := rfl
      simp only [commitments, hqueue, List.countP_cons, hkept, if_true] at hs
      omega
  | writeDone i r w hw => exact ⟨rfl, fun w' => List.mem_of_mem_eraseIdx⟩
  | _ => exact ⟨rfl, fun w hw => hw⟩

/-- What is outstanding after a step was outstanding before it, or is the one write it starts. -/
lemma intact_step (hfree : s.Unobstructed ctx e) (hs : s.Committed ctx)
    (hstep : Step ctx s e s' o) : ∀ w ∈ s'.writes, w.message = s'.response := by
  by_cases hwriting : s.writes = []
  · cases hstep with
    | rejected now rsp => exact intact_writeResponse hwriting rsp
    | send k rsp => exact intact_writeResponse hwriting rsp
    | writeDone i r w hw => simp [hwriting] at hw
    | _ => simp_all [doRead]
  · obtain ⟨hresponse, hsub⟩ := undisturbed_step hfree hs.commitments_le hstep hwriting
    rw [hresponse]
    exact fun w hw => hs.intact w (hsub w hw)

/-! ## Runs -/

/-- The session whose writers are used only while it is committed to nothing. -/
def unobstructed (ctx : Context H) : LTS (Session × List (Output H)) Event :=
  (lts ctx).restrict fun t e => t.1.Unobstructed ctx e

lemma run_committed {id : UInt64} {es : List Event} {t : Session × List (Output H)}
    (h : (unobstructed ctx).run (init ctx id) es = some t) : t.1.Committed ctx := by
  refine LTS.run_invariant (P := fun t => t.1.Committed ctx) ?_ ?_ h
  · exact ⟨Nat.le_refl 1, fun w hw => absurd hw List.not_mem_nil⟩
  · intro t e t' ht hstep
    obtain ⟨hfree, hstep⟩ := LTS.restrict_step.mp hstep
    obtain ⟨o, -, hcases, -⟩ := lts_step hstep
    exact ⟨commitments_step hfree ht.commitments_le hcases, intact_step hfree ht hcases⟩

/-- **Operations never overlap, and what is written stays as it is**, in every run that calls
`send` only while the session is committed to nothing. -/
theorem inFlight_of_unobstructed (ctx : Context H) (id : UInt64) (es : List Event)
    (t : Session × List (Output H)) (h : (unobstructed ctx).run (init ctx id) es = some t) :
    t.1.InFlight ∧ ∀ e t', (unobstructed ctx).step t e = some t' → t.1.writes ≠ [] →
      t'.1.response = t.1.response := by
  have ht := run_committed h
  refine ⟨ht.inFlight, fun e t' hstep hwriting => ?_⟩
  obtain ⟨hfree, hstep⟩ := LTS.restrict_step.mp hstep
  obtain ⟨o, -, hcases, -⟩ := lts_step hstep
  exact (undisturbed_step hfree ht.commitments_le hcases hwriting).1

end Session

/-- A server with one handler, registered under `/hello`. -/
def helloContext : Context Unit where
  boost := plainBoost
  opts := {}
  router := ⟨(HttpPathNode.new "").insert () ["hello"]⟩

/-- `GET target` without fields or body. -/
def getRequest (target : String) : RequestMessage := ⟨.get, target, 11, .empty, ""⟩

/-- `GET /hello` is read, its handler sends while it runs, and the connection is kept. -/
def helloExchange : List Event :=
  [.onRead (.message (getRequest "/hello")), .processRequest 0,
    .send 1 (.new .OK "hello" "text/plain"), .handleReturns, .countHandled, .writeDone 0 .ok,
    .onWrite]

namespace Session

theorem inFlight_of_unobstructed_hello :
    ∃ t, (unobstructed helloContext).run (init helloContext 1) helloExchange = some t ∧
      t.1.InFlight :=
  ⟨_, rfl, (inFlight_of_unobstructed helloContext 1 helloExchange _ rfl).1⟩

/-- The handler of `/hello` uses its writer twice while it runs: two writes are outstanding, and
the second `send` has changed the message that the first is writing. -/
theorem send_twice_overlaps :
    ∃ t, (lts helloContext).run (init helloContext 1)
        [.onRead (.message (getRequest "/hello")), .processRequest 0,
          .send 1 (.new .OK "hello" "text/plain"), .send 1 (.new .OK "again" "text/plain")]
        = some t ∧ t.1.writes.length = 2 ∧ ¬ t.1.InFlight ∧
      t.1.writes.map (·.message.body) = ["hello", "helloagain"] ∧
      t.1.response.body = "helloagain" :=
  ⟨_, rfl, rfl, fun h => absurd h.writes_le (by decide), by decide, by decide⟩

end Session

end HttpServer
