import HttpServerCpp.Session.History
import HttpServerCpp.Session.InFlight

/-!
# A session comes to its end

Whatever the order of completions, handler returns and sends, a request keeps its session busy for
a few steps only, and no session is left over that nothing will ever destroy.

* `stepsLeft` is what a session can still do before it reads another request; `Step.stepsLeft`:
  each step uses up one of it, and a request that is read brings seven more.
* `Serves.progress`: a session that exists has a step to take that waits for no request.
* `session_ends`: a run is at most seven steps for each request long, and two more, and from
  wherever it leads the session can be brought to its end without another request.
-/

namespace HttpServer

namespace Session

variable {H : Type}

/-! ## What is left to do -/

/-- The steps of the strand that are still to come, with those of the response if there is to be
one. -/
def strandSteps : Strand → Nat
  | .idle => 0
  | .processing => 7
  | .handling => 2
  | .returned => 1

/-- The writers that may still be used. -/
def unusedWriters (s : Session) : List Nat := s.writers.filter (· ∉ s.sent)

/-- The steps a session can take before it reads another request.  An unused writer stands for a
`send`, the end of the write, its `onWrite` and the end of the read that follows. -/
def stepsLeft (s : Session) : Nat :=
  strandSteps s.strand + 4 * s.unusedWriters.length + 3 * s.writes.length +
    2 * s.onWrites.length + s.reads + s.alive.toNat

/-- A writer that is used is no longer unused. -/
lemma length_unusedWriters_send {s : Session} {k : Nat} (hk : k ∈ s.writers) (hsent : k ∉ s.sent) :
    (s.writers.filter (· ∉ s.sent ++ [k])).length + 1 ≤ s.unusedWriters.length := by
  have hunused : k ∈ s.unusedWriters := by simp [unusedWriters, hk, hsent]
  have hfilter : s.writers.filter (· ∉ s.sent ++ [k]) = s.unusedWriters.filter (· ≠ k) := by
    simp [unusedWriters, List.filter_filter, and_comm]
  rw [hfilter]
  refine List.length_filter_lt_length_iff_exists.mpr ⟨k, hunused, by simp⟩

/-- **One step** uses up one of the steps that are left; a request brings seven. -/
lemma Step.stepsLeft {ctx : Context H} {s s' : Session} {e : Event} {o : List (Output H)}
    (h : Step ctx s e s' o) (halive : s.alive = true) (hsingle : s.SingleUse e) :
    s'.stepsLeft + 1 ≤ s.stepsLeft + 7 * (receivedOf o).length := by
  cases h with
  | readEndOfStream hidle hreads => simp [Session.stepsLeft, unusedWriters]; omega
  | readTimeout hidle hreads => simp [Session.stepsLeft, unusedWriters]; omega
  | readError hidle hreads => simp [Session.stepsLeft, unusedWriters]; omega
  | requestRead received hidle hreads =>
      have hone : (receivedOf ([.requestRead received, .inc .readSuccess] :
        List (Output H))).length = 1 := rfl
      rw [hone]
      simp only [Session.stepsLeft, unusedWriters, hidle, strandSteps]
      omega
  | rejected now rsp hprocessing hdispatch =>
      simp [Session.stepsLeft, unusedWriters, hprocessing, strandSteps, writeResponse, doWrite]
      omega
  | called now handler request hprocessing hdispatch =>
      have hadded : (List.filter (· ∉ s.sent) (s.writers ++ [s.readCount])).length ≤
          s.unusedWriters.length + 1 := by
        rw [List.filter_append, List.length_append]
        exact Nat.add_le_add_left (List.length_filter_le _ _) _
      simp only [Session.stepsLeft, unusedWriters, hprocessing, strandSteps] at hadded ⊢
      omega
  | handleReturns hhandling =>
      simp [Session.stepsLeft, unusedWriters, hhandling, strandSteps]
      omega
  | countHandled hreturned =>
      simp [Session.stepsLeft, unusedWriters, hreturned, strandSteps]
      omega
  | send k rsp hk =>
      have hused := length_unusedWriters_send hk hsingle
      simp only [Session.stepsLeft, unusedWriters, writeResponse, doWrite, List.length_append,
        List.length_singleton] at hused ⊢
      omega
  | writeDone i r w hw =>
      have hlt := (List.getElem?_eq_some_iff.mp hw).1
      simp only [Session.stepsLeft, unusedWriters, List.length_append, List.length_singleton,
        List.length_eraseIdx, if_pos hlt]
      omega
  | writeTimeout keepAlive rest hidle hqueue =>
      simp [Session.stepsLeft, unusedWriters, hqueue]
      omega
  | writeError keepAlive rest hidle hqueue =>
      simp [Session.stepsLeft, unusedWriters, hqueue]
      omega
  | writeClosed rest hidle hqueue =>
      simp [Session.stepsLeft, unusedWriters, hqueue]
      omega
  | writeKept rest hidle hqueue =>
      simp [Session.stepsLeft, unusedWriters, hqueue, doRead]
      omega
  | destroyed hunowned =>
      simp [Session.stepsLeft, unusedWriters, halive]

/-! ## The next step -/

/-- The arrival of a request. -/
def bringsRequest : Event → Bool
  | .onRead (.message _) => true
  | _ => false

/-- **Progress.**  A session that exists has a step to take, and need not wait for a request. -/
lemma Serves.progress {ctx : Context H} {s : Session} {p : Phase} (hs : Serves ctx.boost s p)
    (halive : s.alive = true) :
    ∃ e, bringsRequest e = false ∧ s.SingleUse e ∧ (Session.step ctx s e).isSome = true := by
  cases hstrand : s.strand with
  | processing =>
      exact ⟨.processRequest 0, rfl, trivial, by simp [Session.step, halive, stepAlive, hstrand]⟩
  | handling =>
      exact ⟨.handleReturns, rfl, trivial, by simp [Session.step, halive, stepAlive, hstrand]⟩
  | returned =>
      exact ⟨.countHandled, rfl, trivial, by simp [Session.step, halive, stepAlive, hstrand]⟩
  | idle =>
      cases hs with
      | reading n hopen _ hreads =>
          exact ⟨.onRead .endOfStream, rfl, trivial,
            by simp [Session.step, halive, stepAlive, hstrand, hreads]⟩
      | processing n hopen hprocessing => simp [hstrand] at hprocessing
      | awaiting n hopen _ hreads hwrites hqueue =>
          exact ⟨.destroy, rfl, trivial,
            by simp [Session.step, halive, stepAlive, Unowned, hstrand, hreads, hwrites, hqueue]⟩
      | writing n hopen _ hreads hwrites =>
          exact ⟨.writeDone 0 .error, rfl, trivial,
            by simp [Session.step, halive, stepAlive, hwrites]⟩
      | written n hopen _ hreads hwrites hqueue =>
          exact ⟨.onWrite, rfl, trivial,
            by simp [Session.step, halive, stepAlive, hstrand, hqueue]⟩
      | closing kept r hopen _ hreads hwrites hqueue =>
          exact ⟨.onWrite, rfl, trivial,
            by simp [Session.step, halive, stepAlive, hstrand, hqueue]⟩
      | closed hopen _ hreads hwrites hqueue =>
          exact ⟨.destroy, rfl, trivial,
            by simp [Session.step, halive, stepAlive, Unowned, hstrand, hreads, hwrites, hqueue]⟩
      | destroyed _ _ hnot => exact absurd (halive.symm.trans hnot) (by simp)

/-! ## Whole runs -/

section Runs

variable {ctx : Context H}

/-- The log of received requests grows by the arrival of one only. -/
lemma Step.receivedOf_eq_nil {s s' : Session} {e : Event} {o : List (Output H)}
    (h : Step ctx s e s' o) (hrequest : bringsRequest e = false) : receivedOf o = [] := by
  cases h with
  | requestRead received hidle hreads => simp [bringsRequest] at hrequest
  | _ => rfl

/-- A step of the machine with its log. -/
lemma singleUse_stepsLeft {t t' : Session × List (Output H)} {e : Event}
    (h : (singleUse ctx).step t e = some t') :
    t'.1.stepsLeft + 1 + 7 * (receivedOf t.2).length ≤
      t.1.stepsLeft + 7 * (receivedOf t'.2).length := by
  obtain ⟨hsingle, hstep⟩ := LTS.restrict_step.mp h
  obtain ⟨o, halive, hcases, hlog⟩ := lts_step hstep
  have hleft := hcases.stepsLeft halive hsingle
  rw [hlog, receivedOf_append, List.length_append]
  omega

/-- A step that brings no request leaves fewer steps. -/
lemma stepsLeft_lt {t t' : Session × List (Output H)} {e : Event}
    (h : (singleUse ctx).step t e = some t') (hrequest : bringsRequest e = false) :
    t'.1.stepsLeft < t.1.stepsLeft := by
  obtain ⟨hsingle, hstep⟩ := LTS.restrict_step.mp h
  obtain ⟨o, halive, hcases, -⟩ := lts_step hstep
  have hleft := hcases.stepsLeft halive hsingle
  rw [hcases.receivedOf_eq_nil hrequest, List.length_nil] at hleft
  omega

/-- The machine can take a step that the session can take. -/
lemma exists_step {t : Session × List (Output H)} {e : Event} (hsingle : t.1.SingleUse e)
    (h : (step ctx t.1 e).isSome = true) : ∃ t', (singleUse ctx).step t e = some t' := by
  obtain ⟨r, hr⟩ := Option.isSome_iff_exists.mp h
  exact ⟨(r.1, t.2 ++ r.2), LTS.restrict_step.mpr ⟨hsingle, LTS.logged_step.mpr ⟨r.2, hr, rfl⟩⟩⟩

end Runs

/-- **Every session ends.**  A run is no longer than seven steps for each request that was read,
and two more; and wherever it leads, without a further request the session can be destroyed. -/
theorem session_ends (ctx : Context H) (id : UInt64) (es : List Event)
    (t : Session × List (Output H)) (h : (singleUse ctx).run (init ctx id) es = some t) :
    es.length ≤ 7 * (receivedOf t.2).length + 2 ∧
      ∃ es' t', (∀ e ∈ es', bringsRequest e = false) ∧ (singleUse ctx).run t es' = some t' ∧
        t'.1.alive = false := by
  constructor
  · have hlength := @LTS.run_length_le _ _ _ (fun t => t.1.stepsLeft)
      (fun t => 7 * (receivedOf t.2).length) (fun _ _ _ hstep => singleUse_stepsLeft hstep) es _ _ h
    have hleft : (init ctx id).1.stepsLeft = 2 := rfl
    have hpaid : (receivedOf (init ctx id).2).length = 0 := rfl
    simp only [hleft, hpaid] at hlength
    omega
  · refine @LTS.exists_run_ending _ _ (singleUse ctx)
      (fun t => ∃ es, (singleUse ctx).run (init ctx id) es = some t) (fun t => t.1.alive = false)
      (fun e => bringsRequest e = false) (fun t => t.1.stepsLeft) ?_ ?_ t.1.stepsLeft t le_rfl
      ⟨es, h⟩
    · rintro s e s' ⟨es, hes⟩ hstep
      refine ⟨es ++ [e], ?_⟩
      rw [LTS.run_append, hes]
      simpa using hstep
    · rintro s ⟨es, hes⟩ halive
      obtain ⟨p, -, hserves⟩ := run_serves es s hes
      obtain ⟨e, hrequest, hsingle, hsome⟩ := hserves.progress (Bool.not_eq_false _ ▸ halive)
      obtain ⟨s', hs'⟩ := exists_step hsingle hsome
      exact ⟨e, s', hrequest, hs', stepsLeft_lt hs' hrequest⟩

/-- A longest run with one request. -/
def endedExchange : List Event := helloExchange ++ [.onRead .endOfStream, .destroy]

theorem session_ends_hello :
    ∃ t, (singleUse helloContext).run (init helloContext 1) endedExchange = some t ∧
      endedExchange.length = 7 * (receivedOf t.2).length + 2 ∧
      endedExchange.length ≤ 7 * (receivedOf t.2).length + 2 :=
  ⟨_, rfl, rfl, (session_ends helloContext 1 endedExchange _ rfl).1⟩

end Session

end HttpServer
