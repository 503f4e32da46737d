import HttpServerCpp.Server.Lifetimes

/-!
# Accepts across runs

`onAccept` starts the next accept whatever became of the last one, so an accept never ends: it is
pending, or its `onAccept` is queued, in every later state.  `stop()` closes the acceptor when the
`io_context` no longer runs handlers; the aborted accept stays queued and starts another one in
the next run, beside the one that `run()` itself starts.

* `chains_step`: the accepts of a server are as many as its `run()` calls that reached
  `doAccept()`.
* `chains_le_one_iff`: so there is at most one exactly as long as there was at most one such call.
* Each queued or pending `onAccept` owns the server.  `owners_eq_zero_iff`: after the `HttpServer`
  is destroyed nobody owns it exactly when there was no such call.
-/

namespace HttpServer

variable {H : Type} {boost : Boost}

namespace HttpServerImpl

/-- The accept chains: an accept that is pending, or whose `onAccept` is queued. -/
def chains (impl : HttpServerImpl H) : Nat := impl.pendingAccepts + impl.queuedAccepts.length

/-- `doAccept` adds one chain, on an open or a closed acceptor. -/
lemma doAccept_chains (impl : HttpServerImpl H) : impl.doAccept.chains = impl.chains + 1 := by
  unfold doAccept
  split_ifs
  · exact Nat.add_right_comm _ _ _
  · simp only [chains, List.length_append, List.length_singleton, Nat.add_assoc]

/-- An aborted accept is queued. -/
lemma closeAcceptor_chains (impl : HttpServerImpl H) :
    impl.closeAcceptor.chains = impl.chains := by
  simp only [chains, closeAcceptor, List.length_append, List.length_replicate]
  omega

lemma stop_chains (impl : HttpServerImpl H) : impl.stop.chains = impl.chains := by
  unfold stop
  cases impl.ioStopped <;> cases hopen : impl.acceptorOpen <;>
    simp only [hopen, Bool.not_true, Bool.not_false, if_true, if_false, Bool.false_eq_true,
      closeAcceptor_chains] <;>
    rfl

/-- `run()` starts an accept if it gets that far. -/
lemma run_chains (env : Env) (host : Host H) :
    (HttpServerImpl.run env host).1.impl.chains = host.impl.chains +
      (decide (host.impl.opts.Valid ∧ host.impl.acceptorOpen = false ∧ env.Serves)).toNat := by
  by_cases hvalid : host.impl.opts.Valid
  · by_cases hopen : host.impl.acceptorOpen = true
    · obtain ⟨message, hrun⟩ := run_of_open hvalid hopen env
      rw [hrun, decide_eq_false (by simp [hopen])]
      rfl
    · have hclosed : host.impl.acceptorOpen = false := Bool.eq_false_iff.mpr hopen
      by_cases hserves : env.Serves
      · rw [run_of_serves hvalid hclosed hserves, decide_eq_true ⟨hvalid, hclosed, hserves⟩]
        exact Nat.add_right_comm _ _ _
      · rw [decide_eq_false (by simp [hserves])]
        by_cases hopens : env.Opens
        · obtain ⟨message, hrun⟩ := run_of_not_serves hvalid hclosed hopens hserves
          rw [hrun]
          rfl
        · obtain ⟨message, hrun⟩ := run_of_not_opens hvalid hopens
          rw [hrun]
          rfl
  · obtain ⟨message, hrun⟩ := run_of_invalid hvalid env
    rw [hrun, decide_eq_false (by simp [hvalid])]
    rfl

end HttpServerImpl

namespace Server

/-- The accept chains of a server. -/
def chains (srv : Server H) : Nat := srv.impl.chains

/-- The event is a call of `run()` that reaches `doAccept()`. -/
def arms (srv : Server H) : ServerEvent → Bool
  | .run env => srv.impl.opts.Valid ∧ srv.impl.acceptorOpen = false ∧ env.Serves
  | _ => false

variable {srv srv' : Server H} {sId sId' : UInt64} {e : ServerEvent}

/-- **Accepts never end.** -/
theorem chains_step (h : srv.step boost sId e = some (sId', srv')) :
    srv'.chains = srv.chains + (srv.arms e).toNat := by
  cases e with
  | run env =>
      simp only [step] at h
      split_ifs at h
      cases h
      exact HttpServerImpl.run_chains env ⟨sId, srv.impl⟩
  | stop =>
      cases h
      exact srv.impl.stop_chains
  | acceptDone r =>
      simp only [step] at h
      split_ifs at h with hpending
      cases h
      simp only [chains, HttpServerImpl.chains, arms, List.length_append, List.length_singleton,
        Bool.toNat_false]
      omega
  | onAccept =>
      simp only [step] at h
      cases hqueue : srv.impl.queuedAccepts with
      | nil => simp [hqueue] at h
      | cons r rest =>
          simp only [hqueue] at h
          split_ifs at h
          -- the accept taken from the queue is replaced by the one started
          have hreplaced : ∀ impl : HttpServerImpl H, impl.pendingAccepts = srv.impl.pendingAccepts →
              impl.queuedAccepts = rest → impl.doAccept.chains = srv.chains := by
            intro impl hpending hrest
            rw [impl.doAccept_chains, HttpServerImpl.chains, chains, HttpServerImpl.chains,
              hpending, hrest, hqueue, List.length_cons, Nat.add_assoc]
          simp only [onAccept] at h
          split_ifs at h <;> cases h <;> exact hreplaced _ rfl rfl
  | session k e =>
      simp only [step] at h
      cases hk : srv.sessions[k]? with
      | none => simp [hk] at h
      | some t =>
          simp only [hk] at h
          split_ifs at h
          obtain ⟨⟨s', o⟩, -, hr⟩ := Option.map_eq_some_iff.mp h
          cases hr
          rfl

end Server

/-! ## Over a run -/

namespace Process

/-- The step is a `run()` of the server at an index that reaches `doAccept()`. -/
def arms (i : Nat) (p : Process H) (e : ProcessEvent) : Bool :=
  e.server = i ∧ (p.servers[i]?).elim false fun srv => srv.arms e.event

/-- The accept chains of the server at an index. -/
def chains (i : Nat) (p : Process H) : Nat := (p.servers[i]?).elim 0 Server.chains

/-- How many of the `run()` calls of a server, in a run of a process, reach `doAccept()`. -/
def armedRuns (boost : Boost) (i : Nat) (p : Process H) (es : List ProcessEvent) : Nat :=
  (lts boost).countSteps (arms i) p es

lemma chains_step {i : Nat} {p p' : Process H} {e : ProcessEvent}
    (h : (lts boost).step p e = some p') : p'.chains i = p.chains i + (arms i p e).toNat := by
  obtain ⟨srv, srv', hsrv, hstep, hset⟩ := step_server h
  by_cases hi : e.server = i
  · subst hi
    have hsrv' : p'.servers[e.server]? = some srv' := by
      rw [hset, List.getElem?_set_self (List.getElem?_eq_some_iff.mp hsrv).1]
    simpa [chains, arms, hsrv, hsrv'] using Server.chains_step hstep
  · simp [chains, arms, hi, step_other h hi]

lemma chains_start (servers : List (HttpServerOptions × HttpRouter H)) (i : Nat) :
    (start servers).chains i = 0 := by
  unfold chains start
  rw [List.getElem?_map]
  cases servers[i]? <;> rfl

/-- **The accept chains of a server are the calls of `run()` that reached `doAccept()`.** -/
theorem chains_eq_armedRuns {servers : List (HttpServerOptions × HttpRouter H)} {i : Nat}
    {es : List ProcessEvent} {p : Process H} (h : (lts boost).run (start servers) es = some p) :
    p.chains i = armedRuns boost i (start servers) es := by
  have hcount := LTS.run_counts (μ := chains i) (C := arms i)
    (fun p e p' hstep => chains_step hstep) es (start servers) p h
  rw [hcount, chains_start, Nat.zero_add]
  rfl

/-- **When there is one accept chain.**  In every run of a process, a server has at most one
accept pending or queued exactly when at most one of its calls of `run()` has reached
`doAccept()`. -/
theorem chains_le_one_iff (boost : Boost) (servers : List (HttpServerOptions × HttpRouter H))
    (i : Nat) (es : List ProcessEvent) (p : Process H)
    (h : (lts boost).run (start servers) es = some p) :
    p.chains i ≤ 1 ↔ armedRuns boost i (start servers) es ≤ 1 := by
  rw [chains_eq_armedRuns h]

theorem chains_le_one_iff_hello :
    ∃ p, (lts plainBoost).run (start helloServers) keptWriter = some p ∧
      (p.chains 0 ≤ 1 ↔ armedRuns plainBoost 0 (start helloServers) keptWriter ≤ 1) :=
  ⟨_, rfl, chains_le_one_iff plainBoost helloServers 0 keptWriter _ rfl⟩

/-- A server is started, stopped and started again. -/
def secondRun : List ProcessEvent := [⟨0, .run {}⟩, ⟨0, .stop⟩, ⟨0, .run {}⟩]

/-- The aborted accept of the first run is queued, and that of the second is pending. -/
theorem secondRun_chains :
    ∃ p, (lts plainBoost).run (start helloServers) secondRun = some p ∧ p.chains 0 = 2 ∧
      (p.servers[0]?).map (fun srv => (srv.impl.pendingAccepts, srv.impl.queuedAccepts)) =
        some (1, [.operationAborted]) :=
  ⟨_, rfl, rfl, rfl⟩

end Process

/-! ## Who owns a server -/

/-- A process, and whether the `HttpServer` object of one of its servers still exists. -/
structure Holding (H : Type) where
  process : Process H
  held : Bool

inductive HoldingEvent where
  | step (e : ProcessEvent)
  | destroy

namespace Holding

/-- Whether an event is a call through the `HttpServer` object. -/
def isCall : ServerEvent → Bool
  | .run _ | .stop => true
  | _ => false

/-- One step: of the process, where a destroyed `HttpServer` is not called any more, or the
destruction of the `HttpServer` of the server at an index after `run()` and `stop()` returned. -/
def step (boost : Boost) (i : Nat) (c : Holding H) : HoldingEvent → Option (Holding H)
  | .step e =>
      if !c.held && (e.server = i && isCall e.event) then none
      else ((Process.lts boost).step c.process e).map fun p => { c with process := p }
  | .destroy =>
      match c.process.servers[i]? with
      | none => none
      | some srv => if c.held && !srv.serving then some { c with held := false } else none

/-- The system of a process and one of its `HttpServer` objects. -/
def lts (boost : Boost) (i : Nat) : LTS (Holding H) HoldingEvent := ⟨step boost i⟩

/-- The owners of the `HttpServerImpl` at an index: the `HttpServer` object, and the `onAccept`
handlers that are pending or queued in its `io_context`. -/
def owners (i : Nat) (c : Holding H) : Nat := c.held.toNat + c.process.chains i

/-- The step is a `run()` that reaches `doAccept()`. -/
def arms (i : Nat) (c : Holding H) : HoldingEvent → Bool
  | .step e => c.process.arms i e
  | .destroy => false

lemma chains_step {i : Nat} {c c' : Holding H} {e : HoldingEvent}
    (h : (lts boost i).step c e = some c') :
    c'.process.chains i = c.process.chains i + (arms i c e).toNat := by
  cases e with
  | step e =>
      simp only [lts, step] at h
      split_ifs at h
      obtain ⟨p, hp, rfl⟩ := Option.map_eq_some_iff.mp h
      exact Process.chains_step hp
  | destroy =>
      simp only [lts, step] at h
      cases hsrv : c.process.servers[i]? with
      | none => simp [hsrv] at h
      | some srv =>
          simp only [hsrv] at h
          split_ifs at h
          cases h
          rfl

/-- **When a stopped server is released.**  In every history, after its `HttpServer` is destroyed
a server has no owner left exactly when none of its calls of `run()` has reached `doAccept()`. -/
theorem owners_eq_zero_iff (boost : Boost) (servers : List (HttpServerOptions × HttpRouter H))
    (i : Nat) (es : List HoldingEvent) (c : Holding H)
    (h : (lts boost i).run ⟨.start servers, true⟩ es = some c) (hdestroyed : c.held = false) :
    c.owners i = 0 ↔ (lts boost i).countSteps (arms i) ⟨.start servers, true⟩ es = 0 := by
  have hcount := LTS.run_counts (μ := fun c => c.process.chains i) (C := arms i)
    (fun c e c' hstep => chains_step hstep) es _ c h
  simp only [Process.chains_start, Nat.zero_add] at hcount
  rw [owners, hdestroyed, hcount, Bool.toNat_false, Nat.zero_add]

/-- A server whose `run()` fails in `bind()`. -/
theorem owners_eq_zero_iff_hello :
    ∃ c, (lts plainBoost 0).run ⟨.start helloServers, true⟩
        [.step ⟨0, .run { bind := some "Address already in use" }⟩, .step ⟨0, .stop⟩, .destroy] =
        some c ∧
      (c.owners 0 = 0 ↔ (lts plainBoost 0).countSteps (arms 0) ⟨.start helloServers, true⟩
        [.step ⟨0, .run { bind := some "Address already in use" }⟩, .step ⟨0, .stop⟩, .destroy] =
        0) :=
  ⟨_, rfl, owners_eq_zero_iff plainBoost helloServers 0
    [.step ⟨0, .run { bind := some "Address already in use" }⟩, .step ⟨0, .stop⟩, .destroy] _ rfl
    rfl⟩

/-- A server is started, stopped and destroyed: its aborted accept owns it. -/
theorem stopped_server_owned :
    ∃ c, (lts plainBoost 0).run ⟨.start helloServers, true⟩
        [.step ⟨0, .run {}⟩, .step ⟨0, .stop⟩, .destroy] = some c ∧
      c.held = false ∧ c.owners 0 = 1 ∧
      (c.process.servers[0]?).map (fun srv => (srv.serving, srv.impl.queuedAccepts)) =
        some (false, [.operationAborted]) :=
  ⟨_, rfl, rfl, rfl, rfl⟩

end Holding

end HttpServer
