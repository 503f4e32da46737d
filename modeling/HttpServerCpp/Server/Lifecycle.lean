import HttpServerCpp.Server.AcceptChain

/-!
# The life of a server

What holds of a server at every moment between its construction and its destruction, whatever
sequence of `run()` and `stop()` calls, accepts and session steps came before.

* `Server.WellRun`: a server that serves listens with all its threads and always has an accept
  pending or queued; one that does not serve has no thread left.  `wellRun_step` is the step,
  `serves_with_threads` says it of every run, and what `stop()` leaves.
* A session holds references into its server.  `session_within_server`: no session outlives it.
-/

namespace HttpServer

variable {H : Type} {boost : Boost}

namespace HttpServerImpl

lemma doAccept_threads (impl : HttpServerImpl H) :
    impl.doAccept.acceptorOpen = impl.acceptorOpen ∧ impl.doAccept.ioStopped = impl.ioStopped ∧
      impl.doAccept.ioThreadPool = impl.ioThreadPool ∧ impl.doAccept.opts = impl.opts := by
  unfold doAccept
  split_ifs <;> exact ⟨rfl, rfl, rfl, rfl⟩

/-- What `stop()` leaves of a server whose threads belong to a running `io_context`. -/
lemma stop_threads {impl : HttpServerImpl H}
    (hpool : impl.ioStopped = true → impl.ioThreadPool = []) :
    impl.stop.ioStopped = true ∧ impl.stop.acceptorOpen = false ∧ impl.stop.ioThreadPool = [] := by
  unfold stop closeAcceptor
  cases hstopped : impl.ioStopped <;> cases hopen : impl.acceptorOpen <;>
    simp [hstopped, hopen, hpool]

end HttpServerImpl

namespace Server

/-- The threads of a server and its accepts. -/
structure WellRun (srv : Server H) : Prop where
  /-- it listens, and its threads execute handlers -/
  listens : srv.serving = true →
    srv.impl.opts.Valid ∧ srv.impl.acceptorOpen = true ∧ srv.impl.ioStopped = false
  /-- `run()` itself and the pool are as many threads as the options ask for -/
  threads : srv.impl.ioThreadPool =
    if srv.serving then List.replicate (srv.impl.opts.threadNum.toNat - 1) true else []
  /-- an accept is pending or queued -/
  accepts : srv.serving = true ∨ srv.sessions ≠ [] → 0 < srv.chains

variable {srv srv' : Server H} {sId sId' : UInt64} {e : ServerEvent}

lemma wellRun_new (opts : HttpServerOptions) (router : HttpRouter H) :
    (Server.new opts router).WellRun := by
  constructor <;> simp [Server.new, HttpServerImpl.new]

/-- A stopped `io_context` has no threads. -/
lemma WellRun.pool (h : srv.WellRun) (hstopped : srv.impl.ioStopped = true) :
    srv.impl.ioThreadPool = [] := by
  rw [h.threads, if_neg]
  intro hserving
  rw [(h.listens hserving).2.2] at hstopped
  cases hstopped

/-- What `stop()` leaves. -/
lemma WellRun.stop (h : srv.WellRun) :
    srv.impl.stop.ioStopped = true ∧ srv.impl.stop.acceptorOpen = false ∧
      srv.impl.stop.ioThreadPool = [] :=
  HttpServerImpl.stop_threads h.pool

/-- A call of `run()`: it fails and leaves the threads alone, or the server serves. -/
lemma WellRun.run (h : srv.WellRun) (hidle : srv.serving = false) (env : Env) :
    WellRun { srv with
      impl := (HttpServerImpl.run env ⟨sId, srv.impl⟩).1.impl
      serving := (HttpServerImpl.run env ⟨sId, srv.impl⟩).2.isNone } := by
  have hpool : srv.impl.ioThreadPool = [] := by
    rw [h.threads, hidle]
    rfl
  have haccepts : srv.sessions ≠ [] → 0 < srv.chains := fun hs => h.accepts (Or.inr hs)
  let host : Host H := ⟨sId, srv.impl⟩
  by_cases hvalid : host.impl.opts.Valid
  · by_cases hserves : host.impl.acceptorOpen = false ∧ env.Serves
    · rw [run_of_serves hvalid hserves.1 hserves.2]
      constructor
      · exact fun _ => ⟨hvalid, rfl, rfl⟩
      · simpa [Host.serving, Host.opened, Host.restarted] using hpool
      · intro _
        simp [chains, HttpServerImpl.chains, Host.serving, Host.opened, Host.restarted]
    · -- nothing but flags and counters was touched before the exception
      have hfails : ∃ host' message, HttpServerImpl.run env host = (host', some message) ∧
          host'.impl.ioThreadPool = [] ∧ host'.impl.chains = srv.chains := by
        by_cases hopen : host.impl.acceptorOpen = true
        · obtain ⟨message, hrun⟩ := run_of_open hvalid hopen env
          exact ⟨_, message, hrun, hpool, rfl⟩
        · have hclosed : host.impl.acceptorOpen = false := Bool.eq_false_iff.mpr hopen
          by_cases hopens : env.Opens
          · obtain ⟨message, hrun⟩ := run_of_not_serves hvalid hclosed hopens fun hs =>
              hserves ⟨hclosed, hs⟩
            exact ⟨_, message, hrun, hpool, rfl⟩
          · obtain ⟨message, hrun⟩ := run_of_not_opens hvalid hopens
            exact ⟨_, message, hrun, hpool, rfl⟩
      obtain ⟨host', message, hrun, hthreads, hchains⟩ := hfails
      rw [hrun]
      constructor
      · simp
      · simpa using hthreads
      · intro hs
        have hsessions : srv.sessions ≠ [] := by simpa using hs
        show 0 < host'.impl.chains
        rw [hchains]
        exact haccepts hsessions
  · obtain ⟨message, hrun⟩ := run_of_invalid hvalid env
    rw [hrun]
    constructor
    · simp
    · simpa using hpool
    · intro hs
      exact haccepts (by simpa using hs)

/-- A step that leaves the threads and the acceptor as they are. -/
lemma WellRun.frame (h : srv.WellRun) (hserving : srv'.serving = srv.serving)
    (hopts : srv'.impl.opts = srv.impl.opts)
    (hopen : srv'.impl.acceptorOpen = srv.impl.acceptorOpen)
    (hstopped : srv'.impl.ioStopped = srv.impl.ioStopped)
    (hpool : srv'.impl.ioThreadPool = srv.impl.ioThreadPool) (hchains : srv'.chains = srv.chains)
    (hsessions : srv.serving = true ∨ (srv'.sessions ≠ [] → srv.sessions ≠ [])) :
    srv'.WellRun := by
  constructor
  · rw [hserving, hopts, hopen, hstopped]
    exact h.listens
  · rw [hserving, hopts, hpool]
    exact h.threads
  · intro hs
    rw [hchains]
    rcases hsessions with hserves | hsessions
    · exact h.accepts (Or.inl hserves)
    · exact h.accepts (hs.imp (fun hserves => hserving ▸ hserves) hsessions)

/-- **The step.** -/
theorem wellRun_step (hw : srv.WellRun) (h : srv.step boost sId e = some (sId', srv')) :
    srv'.WellRun := by
  have hchains := chains_step h
  cases e with
  | run env =>
      simp only [step] at h
      split_ifs at h with hserving
      cases h
      exact hw.run (Bool.eq_false_iff.mpr hserving) env
  | stop =>
      cases h
      constructor
      · simp
      · exact hw.stop.2.2
      · intro hs
        rw [show Server.chains _ = srv.chains from hchains]
        exact hw.accepts (Or.inr (by simpa using hs))
  | acceptDone r =>
      simp only [step] at h
      split_ifs at h
      cases h
      exact hw.frame rfl rfl rfl rfl rfl hchains (Or.inr id)
  | onAccept =>
      simp only [step] at h
      cases hqueue : srv.impl.queuedAccepts with
      | nil => simp [hqueue] at h
      | cons r rest =>
          simp only [hqueue] at h
          split_ifs at h with hserving
          simp only [onAccept] at h
          split_ifs at h <;> cases h
          · obtain ⟨hopen, hstopped, hpool, hopts⟩ := HttpServerImpl.doAccept_threads
              { srv.impl with
                queuedAccepts := rest
                httpStatistics := srv.impl.httpStatistics.inc .session }
            exact hw.frame rfl hopts hopen hstopped hpool hchains (Or.inl hserving)
          · obtain ⟨hopen, hstopped, hpool, hopts⟩ := HttpServerImpl.doAccept_threads
              { srv.impl with queuedAccepts := rest }
            exact hw.frame rfl hopts hopen hstopped hpool hchains (Or.inl hserving)
  | session k e =>
      simp only [step] at h
      cases hk : srv.sessions[k]? with
      | none => simp [hk] at h
      | some t =>
          simp only [hk] at h
          split_ifs at h
          obtain ⟨⟨s', o⟩, -, hr⟩ := Option.map_eq_some_iff.mp h
          cases hr
          refine hw.frame rfl rfl rfl rfl rfl hchains (Or.inr fun _ hnone => ?_)
          rw [hnone] at hk
          cases hk

end Server

namespace Process

/-- Every server of a process is well run. -/
lemma run_wellRun {servers : List (HttpServerOptions × HttpRouter H)} :
    ∀ es p, (lts boost).run (start servers) es = some p →
      ∀ (i : Nat) srv, p.servers[i]? = some srv → srv.WellRun := by
  refine LTS.run_induction (P := fun _ (p : Process H) =>
    ∀ (i : Nat) srv, p.servers[i]? = some srv → srv.WellRun) ?_ ?_
  · intro i srv hsrv
    simp only [start, List.getElem?_map, Option.map_eq_some_iff] at hsrv
    obtain ⟨c, -, rfl⟩ := hsrv
    exact Server.wellRun_new c.1 c.2
  · intro es p e p' _ ih hstep i srv hsrv
    obtain ⟨srv₁, srv₁', hsrv₁, hs, hset⟩ := step_server hstep
    by_cases hi : e.server = i
    · subst hi
      rw [hset, List.getElem?_set_self (List.getElem?_eq_some_iff.mp hsrv₁).1] at hsrv
      obtain rfl := Option.some.inj hsrv
      exact Server.wellRun_step (ih e.server srv₁ hsrv₁) hs
    · rw [step_other hstep hi] at hsrv
      exact ih i srv hsrv

/-- **A server serves with all its threads and keeps accepting.**  After any history of any servers,
a server that serves listens on an open acceptor, `thread_num_` threads execute its handlers, and
the next step of its accept chain can be taken; a server that does not serve has no thread; and
`stop()` leaves a stopped `io_context`, a closed acceptor and no thread. -/
theorem serves_with_threads (boost : Boost) (servers : List (HttpServerOptions × HttpRouter H))
    (es : List ProcessEvent) (p : Process H) (h : (lts boost).run (start servers) es = some p)
    (i : Nat) (srv : Server H) (hsrv : p.servers[i]? = some srv) :
    (srv.serving = true →
      srv.impl.acceptorOpen = true ∧ srv.impl.ioStopped = false ∧
        srv.impl.ioThreadPool.length + 1 = srv.impl.opts.threadNum.toNat ∧
        ∃ e, (e = .onAccept ∨ ∃ r, e = .acceptDone r) ∧ (srv.step boost p.sId e).isSome) ∧
    (srv.serving = false → srv.impl.ioThreadPool = []) ∧
    srv.impl.stop.ioStopped = true ∧ srv.impl.stop.acceptorOpen = false ∧
      srv.impl.stop.ioThreadPool = [] := by
  have hw := run_wellRun es p h i srv hsrv
  refine ⟨fun hserving => ?_, fun hidle => ?_, hw.stop⟩
  · obtain ⟨⟨hthreads, -⟩, hopen, hstopped⟩ := hw.listens hserving
    refine ⟨hopen, hstopped, ?_, ?_⟩
    · have hpos : srv.impl.opts.threadNum.toNat ≠ 0 := fun hzero =>
        hthreads (UInt32.toNat_inj.mp hzero)
      rw [hw.threads, if_pos hserving, List.length_replicate]
      omega
    · have hchain := hw.accepts (Or.inl hserving)
      unfold Server.chains HttpServerImpl.chains at hchain
      by_cases hpending : 0 < srv.impl.pendingAccepts
      · refine ⟨.acceptDone .connection, Or.inr ⟨_, rfl⟩, ?_⟩
        simp only [Server.step, if_pos hpending, Option.isSome_some]
      · refine ⟨.onAccept, Or.inl rfl, ?_⟩
        cases hqueue : srv.impl.queuedAccepts with
        | nil =>
            rw [hqueue, List.length_nil] at hchain
            omega
        | cons r rest => simp [Server.step, hqueue, hserving]
  · rw [hw.threads, hidle]
    rfl

theorem serves_with_threads_hello :
    ∃ p srv, (lts plainBoost).run (start helloServers) keptWriter = some p ∧
      p.servers[0]? = some srv ∧ srv.serving = true ∧
      srv.impl.ioThreadPool.length + 1 = srv.impl.opts.threadNum.toNat :=
  ⟨_, _, rfl, rfl, rfl,
    ((serves_with_threads plainBoost helloServers keptWriter _ rfl 0 _ rfl).1 rfl).2.2.1⟩

end Process

/-! ## The references of a session -/

namespace Holding

/-- The process of a history runs as it would by itself. -/
lemma run_process {servers : List (HttpServerOptions × HttpRouter H)} {i : Nat} :
    ∀ es c, (lts boost i).run ⟨.start servers, true⟩ es = some c →
      ∃ es', (Process.lts boost).run (.start servers) es' = some c.process := by
  refine LTS.run_induction (P := fun _ (c : Holding H) =>
    ∃ es', (Process.lts boost).run (.start servers) es' = some c.process) ⟨[], rfl⟩ ?_
  rintro es c e c' _ ⟨es', hes'⟩ hstep
  cases e with
  | step e =>
      simp only [lts, step] at hstep
      split_ifs at hstep
      obtain ⟨p, hp, rfl⟩ := Option.map_eq_some_iff.mp hstep
      refine ⟨es' ++ [e], ?_⟩
      rw [LTS.run_append, hes', Option.bind_some, LTS.run_cons, hp]
      rfl
  | destroy =>
      simp only [lts, step] at hstep
      cases hsrv : c.process.servers[i]? with
      | none => simp [hsrv] at hstep
      | some srv =>
          simp only [hsrv] at hstep
          split_ifs at hstep
          cases hstep
          exact ⟨es', hes'⟩

/-- **No session outlives its server.**  In every history of a process, also after the `HttpServer`
was destroyed, the `HttpServerImpl` into which the `router_`, `opts_` and `statistics_` of its
sessions refer has an owner as long as it ever had a session. -/
theorem session_within_server (boost : Boost) (servers : List (HttpServerOptions × HttpRouter H))
    (i : Nat) (es : List HoldingEvent) (c : Holding H)
    (h : (lts boost i).run ⟨.start servers, true⟩ es = some c) (srv : Server H)
    (hsrv : c.process.servers[i]? = some srv) (hsessions : srv.sessions ≠ []) :
    0 < c.owners i := by
  obtain ⟨es', hes'⟩ := run_process es c h
  have hchains := (Process.run_wellRun es' c.process hes' i srv hsrv).accepts (Or.inr hsessions)
  have hat : c.process.chains i = srv.chains := by
    rw [Process.chains, hsrv]
    rfl
  unfold owners
  omega

/-- The `HttpServer` of `/hello` is stopped and destroyed while a handler keeps its writer. -/
theorem session_within_server_hello :
    ∃ c srv, (lts plainBoost 0).run ⟨.start helloServers, true⟩
        (keptWriter.map .step ++ [.step ⟨0, .stop⟩, .destroy]) = some c ∧
      c.process.servers[0]? = some srv ∧ c.held = false ∧ 0 < c.owners 0 :=
  ⟨_, _, rfl, rfl, rfl, session_within_server plainBoost helloServers 0
    (keptWriter.map .step ++ [.step ⟨0, .stop⟩, .destroy]) _ rfl _ rfl (List.cons_ne_nil _ _)⟩

end Holding

end HttpServer
