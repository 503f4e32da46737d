import HttpServerCpp.Server.Impl
import HttpServerCpp.Session.InFlight

/-!
# `stop()` against `run()`

One call of `run()` and one call of `stop()` by another thread, statement by statement.  `RunPc`
and `StopPc` say where the two calls are; the statements of `run()` are those of `Server/Impl.lean`,
and `run_alone` and `stop_alone` recover the whole calls when the other thread does nothing.

`stop()` undoes what it finds: it tests `stopped()`, then joins the threads it finds, then tests
`is_open()`.  What `run()` does after the test that would have found it is not undone.  `InTime`
excludes these steps, and `stop_not_lost` shows that nothing else loses a `stop()`.
-/

namespace HttpServer

variable {H : Type}

/-- Where `run()` is: before the statements left, with none of them left in
`io_context_.run()`. -/
inductive RunPc where
  | before (pending : List RunStmt)
  | returned
  | threw (message : String)
deriving DecidableEq

/-- Where `stop()` is.  The loop over `io_thread_pool_` has fixed its end when it begins;
`terminated` is the end of the process by the destructor of a joinable thread. -/
inductive StopPc where
  | testStopped
  | ioStop
  | beginJoin
  | joining (i n : Nat)
  | clearPool
  | testOpen
  | close
  | returned
  | terminated
deriving DecidableEq

/-- A server with both calls under way. -/
structure Race (H : Type) where
  host : Host H
  run : RunPc
  stop : StopPc

/-- Which of the two threads takes a step. -/
inductive Caller where
  | run
  | stop
deriving DecidableEq

namespace Race

/-- Change the server. -/
def withImpl (r : Race H) (impl : HttpServerImpl H) : Race H :=
  { r with host := { r.host with impl := impl } }

/-- A statement of `run()`.  `onAccept` always starts another accept, so `io_context_.run()` does
not run out of work and returns once the `io_context` is stopped. -/
def stepRun (env : Env) (r : Race H) : Option (Race H) :=
  match r.run with
  | .before (c :: cs) =>
      match c.exec env r.host with
      | .error message => some { r with run := .threw message }
      | .ok host => some { r with host := host, run := .before cs }
  | .before [] => if r.host.impl.ioStopped then some { r with run := .returned } else none
  | .returned | .threw _ => none

/-- A statement of `stop()`.  A worker thread can be joined once the `io_context` is stopped. -/
def stepStop (r : Race H) : Option (Race H) :=
  let impl := r.host.impl
  match r.stop with
  | .testStopped => some { r with stop := if impl.ioStopped then .testOpen else .ioStop }
  | .ioStop => some { r.withImpl { impl with ioStopped := true } with stop := .beginJoin }
  | .beginJoin => some { r with stop := .joining 0 impl.ioThreadPool.length }
  | .joining i n =>
      if i = n then some { r with stop := .clearPool }
      else if impl.ioStopped then
        some { r.withImpl { impl with ioThreadPool := impl.ioThreadPool.set i false } with
          stop := .joining (i + 1) n }
      else none
  | .clearPool =>
      if true ∈ impl.ioThreadPool then some { r with stop := .terminated }
      else some { r.withImpl { impl with ioThreadPool := [] } with stop := .testOpen }
  | .testOpen => some { r with stop := if impl.acceptorOpen then .close else .returned }
  | .close => some { r.withImpl impl.closeAcceptor with stop := .returned }
  | .returned | .terminated => none

/-- The interleavings of the two calls. -/
def interleaving (env : Env) : LTS (Race H) Caller where
  step r caller :=
    if r.stop = .terminated then none
    else match caller with
      | .run => r.stepRun env
      | .stop => r.stepStop

/-- `run()` has been entered on a server, and `stop()` may be called. -/
def entered (host : Host H) : Race H :=
  { host := host, run := .before (runProgram host.impl.opts), stop := .testStopped }

/-! ## One thread alone -/

/-- Steps of one thread only. -/
def Alone (env : Env) (caller : Caller) (r r' : Race H) : Prop :=
  ∃ n, (interleaving env).run r (List.replicate n caller) = some r'

lemma Alone.refl (env : Env) (caller : Caller) (r : Race H) : Alone env caller r r := ⟨0, rfl⟩

lemma Alone.head {env : Env} {caller : Caller} {r r' r'' : Race H}
    (hstep : (interleaving env).step r caller = some r') (h : Alone env caller r' r'') :
    Alone env caller r r'' := by
  obtain ⟨n, hn⟩ := h
  refine ⟨n + 1, ?_⟩
  rw [List.replicate_succ, LTS.run_cons, hstep]
  exact hn

lemma Alone.trans {env : Env} {caller : Caller} {r r' r'' : Race H} (h : Alone env caller r r')
    (h' : Alone env caller r' r'') : Alone env caller r r'' := by
  obtain ⟨n, hn⟩ := h
  obtain ⟨m, hm⟩ := h'
  refine ⟨n + m, ?_⟩
  rw [List.replicate_add, LTS.run_append, hn]
  exact hm

/-- Without `stop()`, the statements of `run()` are executed as by `runStmts`. -/
theorem run_alone (env : Env) : ∀ (cs : List RunStmt) (r : Race H), r.run = .before cs →
    r.stop ≠ .terminated → Alone env .run r
      { r with
        host := (runStmts env cs r.host).1
        run := match (runStmts env cs r.host).2 with
          | some message => .threw message
          | none => .before [] } := by
  intro cs
  induction cs with
  | nil =>
      intro r hrun _
      rw [show ({ r with host := _, run := _ } : Race H) = r by rw [runStmts, ← hrun]]
      exact .refl env .run r
  | cons c cs ih =>
      intro r hrun hstop
      cases hexec : c.exec env r.host with
      | error message =>
          have hstep : (interleaving env).step r .run = some { r with run := .threw message } := by
            simp [interleaving, stepRun, hrun, hstop, hexec]
          simp only [runStmts, hexec]
          exact .head hstep (.refl env .run _)
      | ok host =>
          have hstep : (interleaving env).step r .run =
              some { r with host := host, run := .before cs } := by
            simp [interleaving, stepRun, hrun, hstop, hexec]
          have hrest := ih { r with host := host, run := .before cs } rfl hstop
          simp only [runStmts, hexec]
          exact .head hstep hrest

/-- The loop of `stop()` joins every thread it has found and clears the pool. -/
lemma join_alone (env : Env) : ∀ (k i : Nat) (r : Race H), r.stop = .joining i (i + k) →
    r.host.impl.ioStopped = true → r.host.impl.ioThreadPool.length = i + k →
    (∀ j < i, r.host.impl.ioThreadPool[j]? ≠ some true) →
    Alone env .stop r
      { r.withImpl { r.host.impl with ioThreadPool := [] } with stop := .testOpen } := by
  intro k
  induction k with
  | zero =>
      intro i r hstop hstopped hlen hjoined
      have hnone : true ∉ r.host.impl.ioThreadPool := by
        intro hmem
        obtain ⟨j, hj⟩ := List.mem_iff_getElem?.mp hmem
        have hlt := (List.getElem?_eq_some_iff.mp hj).1
        exact hjoined j (by omega) hj
      have hend : (interleaving env).step r .stop = some { r with stop := .clearPool } := by
        simp [interleaving, stepStop, hstop]
      refine .head hend (.head ?_ (.refl env .stop _))
      simp [interleaving, stepStop, hnone, withImpl]
  | succ k ih =>
      intro i r hstop hstopped hlen hjoined
      let impl := { r.host.impl with ioThreadPool := r.host.impl.ioThreadPool.set i false }
      have hstep : (interleaving env).step r .stop =
          some { r.withImpl impl with stop := .joining (i + 1) (i + (k + 1)) } := by
        simp [interleaving, stepStop, hstop, hstopped, impl]
      refine .head hstep ?_
      refine ih (i + 1) { r.withImpl impl with stop := .joining (i + 1) _ }
        (by simp [Nat.add_comm, Nat.add_left_comm]) hstopped ?_ ?_
      · simpa [withImpl, impl, Nat.add_comm, Nat.add_left_comm] using hlen
      · intro j hj htrue
        simp only [withImpl, impl, List.getElem?_set] at htrue
        split_ifs at htrue with hij hlt
        · exact absurd htrue (by simp)
        · exact hjoined j (by omega) htrue

/-- The test of the acceptor and what follows it. -/
lemma testOpen_alone (env : Env) (r : Race H) (hstop : r.stop = .testOpen) :
    Alone env .stop r
      { r.withImpl
          (if r.host.impl.acceptorOpen then r.host.impl.closeAcceptor else r.host.impl) with
        stop := .returned } := by
  by_cases hopen : r.host.impl.acceptorOpen = true
  · have htest : (interleaving env).step r .stop = some { r with stop := .close } := by
      simp [interleaving, stepStop, hstop, hopen]
    refine .head htest (.head ?_ (.refl env .stop _))
    simp [interleaving, stepStop, withImpl, hopen]
  · refine .head ?_ (.refl env .stop _)
    simp [interleaving, stepStop, hstop, hopen, withImpl]

/-- Without `run()`, the statements of `stop()` do what `HttpServerImpl.stop` does. -/
theorem stop_alone (env : Env) (r : Race H) (hstop : r.stop = .testStopped) :
    Alone env .stop r { r.withImpl r.host.impl.stop with stop := .returned } := by
  by_cases hstopped : r.host.impl.ioStopped = true
  · have htest : (interleaving env).step r .stop = some { r with stop := .testOpen } := by
      simp [interleaving, stepStop, hstop, hstopped]
    have hopen := testOpen_alone env { r with stop := .testOpen } rfl
    simp only [HttpServerImpl.stop, hstopped, Bool.not_true, Bool.false_eq_true, if_false]
    exact .head htest hopen
  · have htest : (interleaving env).step r .stop = some { r with stop := .ioStop } := by
      simp [interleaving, stepStop, hstop, hstopped]
    have hio : (interleaving env).step { r with stop := .ioStop } .stop =
        some { r.withImpl { r.host.impl with ioStopped := true } with stop := .beginJoin } := by
      simp [interleaving, stepStop, withImpl]
    have hjoin := join_alone env r.host.impl.ioThreadPool.length 0
      { r.withImpl { r.host.impl with ioStopped := true } with
        stop := .joining 0 (0 + r.host.impl.ioThreadPool.length) } rfl rfl (by simp [withImpl])
      (by simp)
    have hopen := testOpen_alone env
      { r.withImpl { r.host.impl with ioStopped := true, ioThreadPool := [] } with
        stop := .testOpen } rfl
    simp only [HttpServerImpl.stop, hstopped, Bool.not_false, if_true]
    refine .head htest (.head hio (.head ?_ (hjoin.trans hopen)))
    simp [interleaving, stepStop, withImpl]

/-! ## The property and the condition -/

/-- `stop()` is not lost: it has not returned while the server is up or coming up, and when both
calls have ended the server is down. -/
structure NotLost (r : Race H) : Prop where
  down : r.stop = .returned → r.host.impl.ioStopped = false →
    r.host.impl.acceptorOpen = false ∧ ∀ pending, r.run = .before pending → .openAcceptor ∉ pending
  ended : r.stop = .returned → (∀ pending, r.run ≠ .before pending) →
    r.host.impl.ioStopped = true ∧ r.host.impl.acceptorOpen = false ∧
      true ∉ r.host.impl.ioThreadPool

end Race

/-- Whether `stop()` has still to make the test that finds what this statement of `run()` does. -/
def RunStmt.inTime (stop : StopPc) : RunStmt → Bool
  | .restart => stop = .testStopped
  | .emplaceBack => stop = .testStopped || stop = .ioStop || stop = .beginJoin
  | .openAcceptor => !(stop = .close || stop = .returned)
  | _ => true

namespace Race

/-- The statement `run()` executes next. -/
def next (r : Race H) : Option RunStmt :=
  match r.run with
  | .before pending => pending.head?
  | _ => none

/-- `run()` takes no step whose effect `stop()` has missed. -/
def InTime (r : Race H) (caller : Caller) : Prop :=
  caller = .run → r.next.all (RunStmt.inTime r.stop) = true

instance (r : Race H) (caller : Caller) : Decidable (r.InTime caller) :=
  inferInstanceAs (Decidable (_ → _))

/-! ## What one statement changes -/

end Race

section Exec

variable {env : Env} {host host' : Host H} {c : RunStmt}

lemma failing_eq_ok {α : Type} {outcome : Option String} {done a : α}
    (h : failing outcome done = .ok a) : done = a := by
  cases outcome with
  | none => exact Except.ok.inj h
  | some message => cases h

/-- Each member that `stop()` looks at is changed by one statement of `run()` only. -/
lemma exec_frame (h : c.exec env host = .ok host') :
    (c ≠ .restart → host'.impl.ioStopped = host.impl.ioStopped) ∧
    (c ≠ .openAcceptor → host'.impl.acceptorOpen = host.impl.acceptorOpen) ∧
    (c ≠ .emplaceBack → host'.impl.ioThreadPool = host.impl.ioThreadPool) := by
  cases c with
  | checkThreadNum | checkMaxRequestSize | checkAddr =>
      simp only [RunStmt.exec] at h
      split_ifs at h
      cases h
      exact ⟨fun _ => rfl, fun _ => rfl, fun _ => rfl⟩
  | makeAddress =>
      obtain rfl := failing_eq_ok h
      exact ⟨fun _ => rfl, fun _ => rfl, fun _ => rfl⟩
  | reuseAddress | linger | bind | listen =>
      simp only [RunStmt.exec, RunStmt.exec.onOpen] at h
      split_ifs at h
      obtain rfl := failing_eq_ok h
      exact ⟨fun _ => rfl, fun _ => rfl, fun _ => rfl⟩
  | openAcceptor =>
      simp only [RunStmt.exec] at h
      split_ifs at h
      obtain rfl := failing_eq_ok h
      exact ⟨fun _ => rfl, fun hne => absurd rfl hne, fun _ => rfl⟩
  | doAccept =>
      cases h
      unfold HttpServerImpl.doAccept
      split_ifs <;> exact ⟨fun _ => rfl, fun _ => rfl, fun _ => rfl⟩
  | restart =>
      cases h
      exact ⟨fun hne => absurd rfl hne, fun _ => rfl, fun _ => rfl⟩
  | emplaceBack =>
      cases h
      exact ⟨fun _ => rfl, fun _ => rfl, fun hne => absurd rfl hne⟩
  | resetSessionId | resetAllHttpStatistics =>
      cases h
      exact ⟨fun _ => rfl, fun _ => rfl, fun _ => rfl⟩

lemma exec_restart (h : RunStmt.exec env host .restart = .ok host') :
    host'.impl.ioStopped = false := by
  cases h
  rfl

end Exec

namespace Race

/-! ## The invariant -/

/-- `run()` has not come to `restart()`: all that was executed are checks and resets. -/
def BeforeRestart (opts : HttpServerOptions) (pending : List RunStmt) : Prop :=
  ∃ left, left <:+ checks ++ [.resetSessionId, .resetAllHttpStatistics] ∧
    pending = left ++ .restart :: restarted opts

/-- What `stop()` has established when it is at a statement. -/
def Established (opts : HttpServerOptions) (r : Race H) : Prop :=
  match r.stop with
  | .testStopped => r.host.impl.ioStopped = true → r.host.impl.acceptorOpen = false ∧
      r.host.impl.ioThreadPool = [] ∧
      ∀ pending, r.run = .before pending → BeforeRestart opts pending
  | .ioStop => True
  | .beginJoin => r.host.impl.ioStopped = true
  | .joining i n => r.host.impl.ioStopped = true ∧ r.host.impl.ioThreadPool.length = n ∧
      ∀ j < i, r.host.impl.ioThreadPool[j]? ≠ some true
  | .clearPool => r.host.impl.ioStopped = true ∧ true ∉ r.host.impl.ioThreadPool
  | .testOpen | .close => r.host.impl.ioStopped = true ∧ r.host.impl.ioThreadPool = []
  | .returned => r.host.impl.ioStopped = true ∧ r.host.impl.ioThreadPool = [] ∧
      r.host.impl.acceptorOpen = false
  | .terminated => False

variable {env : Env} {opts : HttpServerOptions} {r r' : Race H}

lemma Established.notLost (h : Established opts r) : NotLost r := by
  constructor
  · intro hreturned hrunning
    simp only [Established, hreturned] at h
    simp [h.1] at hrunning
  · intro hreturned _
    simp only [Established, hreturned] at h
    exact ⟨h.1, h.2.2, by simp [h.2.1]⟩

lemma beforeRestart_runProgram (opts : HttpServerOptions) :
    BeforeRestart opts (runProgram opts) :=
  ⟨checks ++ [.resetSessionId, .resetAllHttpStatistics], List.suffix_refl _, by
    simp [runProgram, checks]⟩

/-- What is executed before `restart()` leaves everything `stop()` looks at alone. -/
lemma BeforeRestart.tail {c : RunStmt} {cs : List RunStmt} (h : BeforeRestart opts (c :: cs))
    (hc : c ≠ .restart) :
    BeforeRestart opts cs ∧ c ≠ .openAcceptor ∧ c ≠ .emplaceBack := by
  obtain ⟨left, hsuffix, hcons⟩ := h
  cases left with
  | nil =>
      obtain ⟨rfl, -⟩ := List.cons.inj hcons
      exact absurd rfl hc
  | cons c' left =>
      obtain ⟨rfl, hcs⟩ := List.cons.inj hcons
      have hmem : c ∈ checks ++ [.resetSessionId, .resetAllHttpStatistics] :=
        hsuffix.subset List.mem_cons_self
      refine ⟨⟨left, (List.suffix_cons c left).trans hsuffix, hcs⟩, ?_, ?_⟩
      · rintro rfl
        simp [checks] at hmem
      · rintro rfl
        simp [checks] at hmem

/-- A statement of `run()` that is in time keeps what `stop()` has established. -/
lemma Established.exec {host' : Host H} {c : RunStmt} {cs : List RunStmt}
    (h : Established opts r) (hrun : r.run = .before (c :: cs)) (hintime : c.inTime r.stop = true)
    (hexec : c.exec env r.host = .ok host') :
    Established opts { r with host := host', run := .before cs } := by
  obtain ⟨hio, hopen, hpool⟩ := exec_frame hexec
  have hstays : r.stop ≠ .testStopped → host'.impl.ioStopped = r.host.impl.ioStopped := by
    intro hstop
    refine hio ?_
    rintro rfl
    simp [RunStmt.inTime, hstop] at hintime
  have hfixed : r.stop ≠ .testStopped → r.stop ≠ .ioStop → r.stop ≠ .beginJoin →
      host'.impl.ioThreadPool = r.host.impl.ioThreadPool := by
    intro htest hio' hbegin
    refine hpool ?_
    rintro rfl
    simp [RunStmt.inTime, htest, hio', hbegin] at hintime
  cases hstop : r.stop with
  | testStopped =>
      simp only [Established, hstop] at h ⊢
      intro hstopped
      have hc : c ≠ .restart := by
        rintro rfl
        simp [exec_restart hexec] at hstopped
      rw [hio hc] at hstopped
      obtain ⟨hclosed, hnil, hbefore⟩ := h hstopped
      obtain ⟨hrest, hne, hne'⟩ := (hbefore _ hrun).tail hc
      refine ⟨by rw [hopen hne, hclosed], by rw [hpool hne', hnil], fun pending hpending => ?_⟩
      obtain rfl := RunPc.before.inj hpending
      exact hrest
  | ioStop => trivial
  | beginJoin =>
      simp only [Established, hstop] at h ⊢
      rw [hstays (by simp [hstop]), h]
  | joining | clearPool | testOpen | close =>
      simp only [Established, hstop] at h ⊢
      rw [hstays (by simp [hstop]), hfixed (by simp [hstop]) (by simp [hstop]) (by simp [hstop])]
      exact h
  | returned =>
      simp only [Established, hstop] at h ⊢
      have hne : c ≠ .openAcceptor := by
        rintro rfl
        simp [RunStmt.inTime, hstop] at hintime
      rw [hstays (by simp [hstop]), hfixed (by simp [hstop]) (by simp [hstop]) (by simp [hstop]),
        hopen hne]
      exact h
  | terminated => simp only [Established, hstop] at h

/-- A step of `run()`. -/
lemma Established.stepRun (h : Established opts r) (hintime : r.InTime .run)
    (hstep : r.stepRun env = some r') : Established opts r' := by
  have hended : ∀ run, (∀ pending, run ≠ .before pending) →
      Established opts { r with run := run } := by
    intro run hrun
    cases hstop : r.stop with
    | testStopped =>
        simp only [Established, hstop] at h ⊢
        intro hstopped
        obtain ⟨hclosed, hnil, -⟩ := h hstopped
        exact ⟨hclosed, hnil, fun pending hpending => absurd hpending (hrun pending)⟩
    | ioStop => trivial
    | terminated => simp only [Established, hstop] at h
    | _ =>
        simp only [Established, hstop] at h ⊢
        exact h
  cases hrun : r.run with
  | before pending =>
      cases pending with
      | nil =>
          simp only [Race.stepRun, hrun] at hstep
          split_ifs at hstep
          cases hstep
          exact hended _ (by simp)
      | cons c cs =>
          simp only [Race.stepRun, hrun] at hstep
          cases hexec : c.exec env r.host with
          | error message =>
              simp only [hexec] at hstep
              cases hstep
              exact hended _ (by simp)
          | ok host' =>
              simp only [hexec] at hstep
              cases hstep
              have hc := hintime rfl
              simp only [next, hrun, List.head?_cons, Option.all_some] at hc
              exact h.exec hrun hc hexec
  | returned => simp [Race.stepRun, hrun] at hstep
  | threw message => simp [Race.stepRun, hrun] at hstep

/-- A step of `stop()` establishes what its next statement relies on. -/
lemma Established.stepStop (h : Established opts r) (hstep : r.stepStop = some r') :
    Established opts r' := by
  cases hstop : r.stop with
  | testStopped =>
      simp only [Race.stepStop, hstop, Option.some.injEq] at hstep
      subst hstep
      by_cases hstopped : r.host.impl.ioStopped = true
      · simp only [Established, hstop] at h
        simp only [Established, hstopped, if_true]
        exact ⟨trivial, (h hstopped).2.1⟩
      · simp only [Established, hstopped, if_false, Bool.false_eq_true]
  | ioStop =>
      simp only [Race.stepStop, hstop, Option.some.injEq] at hstep
      subst hstep
      rfl
  | beginJoin =>
      simp only [Race.stepStop, hstop, Option.some.injEq] at hstep
      subst hstep
      simp only [Established, hstop] at h
      simp [Established, h]
  | joining i n =>
      simp only [Established, hstop] at h
      simp only [Race.stepStop, hstop] at hstep
      obtain ⟨hstopped, hlen, hjoined⟩ := h
      split_ifs at hstep with hi
      · cases hstep
        refine ⟨hstopped, fun hmem => ?_⟩
        obtain ⟨j, hj⟩ := List.mem_iff_getElem?.mp hmem
        have hlt : j < r.host.impl.ioThreadPool.length := (List.getElem?_eq_some_iff.mp hj).1
        exact hjoined j (by omega) hj
      · cases hstep
        refine ⟨hstopped, by simpa [withImpl] using hlen, fun j hj htrue => ?_⟩
        simp only [withImpl, List.getElem?_set] at htrue
        split_ifs at htrue with hij hlt
        · exact absurd htrue (by simp)
        · exact hjoined j (by omega) htrue
  | clearPool =>
      simp only [Established, hstop] at h
      simp only [Race.stepStop, hstop, if_neg h.2, Option.some.injEq] at hstep
      subst hstep
      exact ⟨h.1, rfl⟩
  | testOpen =>
      simp only [Established, hstop] at h
      simp only [Race.stepStop, hstop, Option.some.injEq] at hstep
      subst hstep
      by_cases hopen : r.host.impl.acceptorOpen = true
      · simp only [Established, hopen, if_true]
        exact h
      · simp only [Established, hopen, if_false, Bool.false_eq_true]
        exact ⟨h.1, h.2, trivial⟩
  | close =>
      simp only [Established, hstop] at h
      simp only [Race.stepStop, hstop, Option.some.injEq] at hstep
      subst hstep
      exact ⟨h.1, h.2, rfl⟩
  | returned => simp [Race.stepStop, hstop] at hstep
  | terminated => simp [Race.stepStop, hstop] at hstep

/-! ## The result -/

/-- The interleavings in which every step of `run()` is in time. -/
def inTime (env : Env) : LTS (Race H) Caller :=
  (interleaving env).restrict fun r caller => r.InTime caller

/-- **`stop()` is not lost** in any interleaving in which `run()` restarts the `io_context` before
`stop()` tests it, starts its threads before `stop()` joins them and opens the acceptor before
`stop()` tests it. -/
theorem stop_not_lost (env : Env) (host : Host H) (hclosed : host.impl.acceptorOpen = false)
    (hpool : host.impl.ioThreadPool = []) (es : List Caller) (r : Race H)
    (h : (inTime env).run (entered host) es = some r) : NotLost r := by
  have hinit : Established host.impl.opts (entered host) := by
    intro _
    refine ⟨hclosed, hpool, fun pending hpending => ?_⟩
    obtain rfl := RunPc.before.inj hpending
    exact beforeRestart_runProgram _
  refine (LTS.run_invariant hinit ?_ h).notLost
  intro r caller r' hr hstep
  obtain ⟨hintime, hstep⟩ := LTS.restrict_step.mp hstep
  simp only [interleaving] at hstep
  split_ifs at hstep
  cases caller with
  | run => exact hr.stepRun hintime hstep
  | stop => exact hr.stepStop hstep

/-- A server that is run by three threads, two of them its own. -/
def threeThreads : Host Unit := ⟨0, .new { threadNum := 3 } helloContext.router⟩

/-- `run()` has started both of its threads and is about to block when `stop()` is called, which
joins them; `run()` returns while it does. -/
def stopWhileServing : List Caller :=
  List.replicate 15 .run ++ List.replicate 4 .stop ++ [.run] ++ List.replicate 5 .stop

theorem stop_not_lost_serving :
    (∃ r, (inTime {}).run (entered threeThreads) (stopWhileServing.take 15) = some r ∧
      r.run = .before [] ∧ r.host.impl.ioThreadPool = [true, true]) ∧
    ∃ r, (inTime {}).run (entered threeThreads) stopWhileServing = some r ∧
      r.run = .returned ∧ r.stop = .returned ∧ r.host.impl.ioThreadPool = [] ∧ NotLost r :=
  ⟨⟨_, rfl, rfl, rfl⟩, _, rfl, rfl, rfl, rfl,
    stop_not_lost {} threeThreads rfl rfl stopWhileServing _ rfl⟩

/-- `stop()` is called when `run()` has only been entered: it finds nothing to stop and returns,
and `run()` goes on to serve. -/
theorem stop_before_restart_lost :
    ∃ r, (interleaving {}).run (entered (⟨0, .new {} helloContext.router⟩ : Host Unit))
        (.run :: List.replicate 2 .stop ++ List.replicate 12 .run) = some r ∧
      r.stop = .returned ∧ r.run = .before [] ∧ r.host.impl.ioStopped = false ∧
      r.host.impl.acceptorOpen = true ∧ ¬ NotLost r :=
  ⟨_, rfl, rfl, rfl, rfl, rfl, fun h => absurd (h.down rfl rfl).1 (by decide)⟩

end Race

end HttpServer
