import HttpServerCpp.Message.Codings
import HttpServerCpp.Session.Ordering

/-!
# What a response announces and what the session then does

The header of a written response tells the client what to expect of its body and of the
connection.  This file follows both through runs of single use.

* `run_received_iff`: which of the written bodies the client decodes to what the handler meant.
* `Closes`: after a write nothing is read any more, and once the write is done with the session is
  closed.  `Ending` is the invariant behind it.
* `closes_iff`: a response after which the connection must not be kept says so and closes it,
  unless a `Connection` header of the user's own says otherwise.
-/

namespace HttpServer

variable {H : Type}

/-- The message announces that the connection is closed after it. -/
def AnnouncesClose (boost : Boost) (m : ResponseMessage) : Prop :=
  ∃ value, m.fields.find "Connection" = some value ∧ boost.tokenListExists value "close" = true

lemma announcesClose_iff {boost : Boost} {m : ResponseMessage} :
    AnnouncesClose boost m ↔ m.keepAlive boost = false := by
  unfold AnnouncesClose ResponseMessage.keepAlive
  rcases m.fields.find "Connection" with _ | value <;> simp

/-- The last `Connection` header of the user, if there is one, asks for the close. -/
def UserCloses (boost : Boost) (rsp : HttpResponse) : Prop :=
  ∀ value, lastNamed rsp.headers.entries "Connection" = some value →
    boost.tokenListExists value "close" = true

/-- What decides about a connection that must not be kept. -/
lemma keepsAlive_eq_false_iff {boost : Boost} {request : RequestMessage} {rsp : HttpResponse}
    (hdisabled : rsp.forceDisableKeepAlive = true ∨ request.keepAlive boost = false) :
    keepsAlive boost request rsp = false ↔ UserCloses boost rsp := by
  unfold keepsAlive UserCloses
  rcases lastNamed rsp.headers.entries "Connection" with _ | value
  · rcases hdisabled with h | h <;> simp [h]
  · simp

namespace Session

variable {ctx : Context H} {s s' : Session} {e : Event} {o : List (Output H)} {id : UInt64}
  {p : Phase} {t t' : Session × List (Output H)} {es : List Event}

/-! ## Bodies -/

/-- **The announced coding, along a run.**  Whatever was exchanged before on the connection, the
client decodes the body of a response to what the handler meant unless the server compressed a
body that the handler had coded. -/
theorem run_received_iff (h : (singleUse ctx).run (init ctx id) es = some t) {j k : Nat}
    {rsp : HttpResponse} {m : ResponseMessage} {request : RequestMessage}
    (hwrite : (writesOf t.2)[j]? = some (k, rsp, m))
    (hrequest : (receivedOf t.2)[j]? = some request) (hmethod : request.method ≠ .head)
    (C : Codings ctx.boost) :
    C.received m = C.meant rsp ↔
      ¬ gzips ctx.opts request rsp ∨ C.meant rsp = some rsp.body := by
  obtain ⟨request', hrequest', rfl⟩ := (run_recorded es t h).ledger.written j k rsp m hwrite
  obtain rfl := Option.some.inj (hrequest.symm.trans hrequest')
  exact received_eq_meant_iff ctx.opts request rsp .fresh C hmethod

/-! ## The last write -/

/-- Nothing is left to happen but the completion of a write after which the session closes. -/
structure Ending (s : Session) : Prop where
  reads : s.reads = 0
  strand : s.strand ≠ .processing
  writes : ∀ w ∈ s.writes, w.keepAlive = false
  onWrites : ∀ q ∈ s.onWrites, q.1 = false
  used : s.sent.Perm s.writers
  pending : s.isOpen = true → s.writes ≠ [] ∨ s.onWrites ≠ []

/-- The step that hands the last response over leaves only its write. -/
lemma Serves.ending (hs : Serves ctx.boost s p) (hne : s.writes ≠ [])
    (hclose : s.response.keepAlive ctx.boost = false) : s.Ending := by
  cases hs with
  | writing n hopen hstrand hreads hwrites hqueue hsent =>
      refine ⟨hreads, hstrand, ?_, by simp [hqueue], hsent, fun _ => Or.inl hne⟩
      intro w hw
      rw [hwrites, List.mem_singleton] at hw
      rw [hw, hclose]
  | _ => exact absurd ‹s.writes = []› hne

lemma Ending.step (h : s.Ending) (hsingle : s.SingleUse e) (hstep : Step ctx s e s' o) :
    s'.Ending ∧ readIdsOf o = [] := by
  obtain ⟨hreads, hstrand, hwrites, hqueue, hused, hpending⟩ := h
  cases hstep with
  | readEndOfStream _ hpos | readTimeout _ hpos | readError _ hpos | requestRead _ _ hpos =>
      exact absurd hreads (Nat.pos_iff_ne_zero.mp hpos)
  | rejected _ _ hprocessing | called _ _ _ hprocessing => exact absurd hprocessing hstrand
  | handleReturns =>
      exact ⟨⟨hreads, by simp, hwrites, hqueue, hused, hpending⟩, rfl⟩
  | countHandled =>
      exact ⟨⟨hreads, by simp, hwrites, hqueue, hused, hpending⟩, rfl⟩
  | send k rsp hk => exact absurd (hused.mem_iff.mpr hk) hsingle
  | writeDone i r w hw =>
      refine ⟨⟨hreads, hstrand, ?_, ?_, hused, fun _ => Or.inr (by simp)⟩, rfl⟩
      · intro w' hw'
        exact hwrites w' (List.mem_of_mem_eraseIdx hw')
      · intro q hq
        rcases List.mem_append.mp hq with hq | hq
        · exact hqueue q hq
        · rw [List.mem_singleton.mp hq]
          exact hwrites w (List.mem_of_getElem? hw)
  | writeTimeout kept rest _ hhead | writeError kept rest _ hhead | writeClosed rest _ hhead =>
      refine ⟨⟨hreads, hstrand, hwrites, ?_, hused, by simp⟩, rfl⟩
      intro q hq
      exact hqueue q (hhead ▸ List.mem_cons_of_mem _ hq)
  | writeKept rest _ hhead =>
      -- what is queued is not kept
      have hkept := hqueue (true, .ok) (hhead ▸ List.mem_cons_self)
      cases hkept
  | destroyed => exact ⟨⟨hreads, hstrand, hwrites, hqueue, hused, by simp⟩, rfl⟩

/-- From here on no read is started, and when no write is left the session is closed. -/
def Closes (ctx : Context H) (t : Session × List (Output H)) : Prop :=
  ∀ fs u, (singleUse ctx).run t fs = some u →
    readIdsOf u.2 = readIdsOf t.2 ∧ (u.1.writes = [] → u.1.onWrites = [] → u.1.isOpen = false)

lemma Ending.closes (h : t.1.Ending) : Closes ctx t := by
  intro fs u hu
  have hall : u.1.Ending ∧ readIdsOf u.2 = readIdsOf t.2 := by
    refine LTS.run_invariant (P := fun u => u.1.Ending ∧ readIdsOf u.2 = readIdsOf t.2) ⟨h, rfl⟩
      ?_ hu
    rintro u e u' ⟨hending, hids⟩ hstep
    obtain ⟨hsingle, hstep⟩ := LTS.restrict_step.mp hstep
    obtain ⟨o, -, hcases, hlog⟩ := lts_step hstep
    obtain ⟨hending', hnone⟩ := hending.step hsingle hcases
    exact ⟨hending', by rw [hlog, readIdsOf_append, hnone, List.append_nil, hids]⟩
  obtain ⟨hending, hids⟩ := hall
  refine ⟨hids, fun hwrites hqueue => ?_⟩
  by_contra hopen
  rcases hending.pending (by simpa using hopen) with h | h
  · exact h hwrites
  · exact h hqueue

/-! ## Responses that must not keep the connection -/

/-- The completion of the write closes the session without another read, in whatever state it
finds the session and however the write ended. -/
def StopsAfter (ctx : Context H) (w : PendingWrite) : Prop :=
  ∀ u r, (onWrite ctx u w.keepAlive r).1.isOpen = false ∧
    readIdsOf (onWrite ctx u w.keepAlive r).2 = []

lemma stopsAfter_iff {w : PendingWrite} : StopsAfter ctx w ↔ w.keepAlive = false := by
  constructor
  · intro h
    by_contra hkeep
    obtain ⟨-, hnone⟩ := h (new 0) .ok
    rw [Bool.not_eq_false] at hkeep
    rw [hkeep] at hnone
    cases hnone
  · rintro hkeep u (_ | _ | _) <;> rw [hkeep] <;> exact ⟨rfl, rfl⟩

/-- A step that starts a write has assembled the message, for the request the session holds. -/
lemma write_step {k : Nat} {rsp : HttpResponse} {m : ResponseMessage} (hstep : Step ctx s e s' o)
    (hwrite : writesOf o = [(k, rsp, m)]) :
    s'.response = m ∧ s'.writes = s.writes ++ [⟨m.keepAlive ctx.boost, m⟩] ∧
      m = writeResponseMessage ctx.boost ctx.opts s.request rsp s.response := by
  cases hstep with
  | rejected now rsp' | send k' rsp' =>
      cases hwrite
      exact ⟨rfl, rfl, rfl⟩
  | _ => cases hwrite

/-- **When a disabled keep-alive takes effect.**  Take any step that starts the write of a
response for which the connection must not be kept: the handler said so, or the request does not
allow it.  The completion of this write closes the session without another read, and the message
announces it, exactly when no `Connection` header of the user's own overrules that.

In a run of single use the same decides whether the session ever reads again. -/
theorem closes_iff (ctx : Context H) (hdoc : ctx.boost.Documented) (e : Event)
    (t t' : Session × List (Output H)) (k : Nat) (rsp : HttpResponse) (m : ResponseMessage)
    (hstep : (lts ctx).step t e = some t')
    (hwrite : writesOf t'.2 = writesOf t.2 ++ [(k, rsp, m)])
    (hdisabled : rsp.forceDisableKeepAlive = true ∨ t.1.request.keepAlive ctx.boost = false) :
    (∃ w, t'.1.writes = t.1.writes ++ [w] ∧ w.message = m ∧
      (StopsAfter ctx w ∧ AnnouncesClose ctx.boost m ↔ UserCloses ctx.boost rsp)) ∧
    ∀ id es, (singleUse ctx).run (init ctx id) es = some t' →
      (Closes ctx t' ∧ AnnouncesClose ctx.boost m ↔ UserCloses ctx.boost rsp) := by
  obtain ⟨o, -, hcases, hlog⟩ := lts_step hstep
  rw [hlog, writesOf_append, List.append_cancel_left_eq] at hwrite
  obtain ⟨hresponse, hwrites, hm⟩ := write_step hcases hwrite
  have hkeep : m.keepAlive ctx.boost = false ↔ UserCloses ctx.boost rsp := by
    rw [hm, keepAlive_writeResponseMessage hdoc, keepsAlive_eq_false_iff hdisabled]
  constructor
  · refine ⟨_, hwrites, rfl, ?_⟩
    rw [stopsAfter_iff, announcesClose_iff, hkeep, and_self]
  · intro id es hrun
    rw [announcesClose_iff, hkeep]
    refine ⟨fun hboth => hboth.2, fun huser => ⟨?_, huser⟩⟩
    obtain ⟨p, -, hs⟩ := run_serves es t' hrun
    have hne : t'.1.writes ≠ [] := by simp [hwrites]
    exact (hs.ending hne (by rw [hresponse, hkeep]; exact huser)).closes

/-- A response with forced close and two `Connection` headers, of which the second asks for it. -/
def closingReply : HttpResponse :=
  (((HttpResponse.new .Bad_Request "hello" "text/plain").header "Connection" "keep-alive").header
    "connection" "close").withForceDisableKeepAlive

theorem closes_iff_hello :
    ∃ t t', (singleUse helloContext).run (init helloContext 1)
        [.onRead (.message (getRequest "/hello")), .processRequest 0] = some t ∧
      (lts helloContext).step t (.send 1 closingReply) = some t' ∧
      (∃ w, t'.1.writes = t.1.writes ++ [w] ∧ StopsAfter helloContext w ∧
        AnnouncesClose plainBoost w.message) ∧
      Closes helloContext t' := by
  have huser : UserCloses plainBoost closingReply := by
    have hlast : lastNamed closingReply.headers.entries "Connection" = some "close" := by decide
    intro value hvalue
    rw [hlast] at hvalue
    obtain rfl := Option.some.inj hvalue
    decide
  have hexchange : ∃ t t' m, (singleUse helloContext).run (init helloContext 1)
        [.onRead (.message (getRequest "/hello")), .processRequest 0] = some t ∧
      (lts helloContext).step t (.send 1 closingReply) = some t' ∧
      writesOf t'.2 = writesOf t.2 ++ [(1, closingReply, m)] ∧
      (singleUse helloContext).run (init helloContext 1) [.onRead (.message (getRequest "/hello")),
        .processRequest 0, .send 1 closingReply] = some t' := ⟨_, _, _, rfl, rfl, rfl, rfl⟩
  obtain ⟨t, t', m, hrun, hstep, hwrite, hsent⟩ := hexchange
  obtain ⟨⟨w, hwrites, rfl, hstops⟩, hruns⟩ := closes_iff helloContext plainBoost_documented
    (.send 1 closingReply) t t' 1 closingReply m hstep hwrite (Or.inl rfl)
  exact ⟨t, t', hrun, hstep, ⟨w, hwrites, hstops.mpr huser⟩, ((hruns 1 _ hsent).mpr huser).1⟩

/-- A handler forces the close and sets `Connection: keep-alive`: the message announces the
latter, and the session reads the next request. -/
theorem forced_close_overruled :
    ∃ t, (singleUse helloContext).run (init helloContext 1)
        [.onRead (.message (getRequest "/hello")), .processRequest 0,
          .send 1 ((HttpResponse.new .OK "hello" "text/plain").header "Connection"
            "keep-alive").withForceDisableKeepAlive,
          .handleReturns, .countHandled, .writeDone 0 .ok, .onWrite] = some t ∧
      readIdsOf t.2 = [1, 2] ∧ t.1.reads = 1 ∧ t.1.isOpen = true ∧
      (writesOf t.2).map (fun w => w.2.2.fields.find "Connection") = [some "keep-alive"] ∧
      (writesOf t.2).map (fun w => w.2.1.forceDisableKeepAlive) = [true] :=
  ⟨_, rfl, rfl, rfl, rfl, by decide, rfl⟩

end Session

end HttpServer
