import Mathlib.Algebra.GroupWithZero.Nat
import Mathlib.Algebra.Order.BigOperators.Group.List
import HttpServerCpp.Server.FailedRun
import HttpServerCpp.Session.Serving

/-!
# A process with several servers

Servers of one process share the id generator `HttpSession::s_id`; each owns its counters and the
sessions its accepts have constructed.  A session stays in the list of its server when it is
destroyed, marked as such, so that sessions keep their positions.

Between two steps a server may be stopped and started again.  Completion handlers of accepts and
of sessions start only while a thread is in `io_context_.run()`; what a handler has begun goes on
after `stop()`, and writers may be used and sessions destroyed at any time.

* `Server.Step` lists what one step can do, `step_cases` that the list is complete.
* `run_sessions` carries a fact about single sessions from `Session.lts` to whole processes.
-/

namespace HttpServer

variable {H : Type}

/-- An `HttpServerImpl` in use: whether a thread is in its `io_context_.run()`, and the sessions
constructed so far with their logs. -/
structure Server (H : Type) where
  impl : HttpServerImpl H
  serving : Bool
  sessions : List (Session × List (Output H))

inductive ServerEvent where
  | run (env : Env)
  | stop
  | acceptDone (r : AcceptResult)
  | onAccept
  | session (k : Nat) (e : Event)

/-- All `HttpServer` objects of a process. -/
structure Process (H : Type) where
  sId : UInt64
  servers : List (Server H)

/-- An event of the server at an index. -/
structure ProcessEvent where
  server : Nat
  event : ServerEvent

/-- The events that are completion handlers being started. -/
def Event.starts : Event → Bool
  | .onRead _ | .onWrite => true
  | _ => false

namespace Server

/-- What the sessions of a server see of it. -/
def ctx (boost : Boost) (srv : Server H) : Context H := ⟨boost, srv.impl.opts, srv.impl.router⟩

/-- A server that has not been started. -/
def new (opts : HttpServerOptions) (router : HttpRouter H) : Server H :=
  ⟨.new opts router, false, []⟩

/-- `HttpServerImpl::onAccept` for the accept at the head of the queue. -/
def onAccept (boost : Boost) (sId : UInt64) (srv : Server H) (r : AcceptResult) :
    UInt64 × Server H :=
  if r = .connection then
    (sId + 1,
      { srv with
        impl := { srv.impl with httpStatistics := srv.impl.httpStatistics.inc .session }.doAccept
        sessions := srv.sessions ++ [Session.init (srv.ctx boost) (sId + 1)] })
  else (sId, { srv with impl := srv.impl.doAccept })

/-- A session of the server took a step. -/
def afterSession (srv : Server H) (k : Nat) (s' : Session) (log o : List (Output H)) : Server H :=
  { srv with
    impl := { srv.impl with httpStatistics := srv.impl.httpStatistics.updateAll o }
    sessions := srv.sessions.set k (s', log ++ o) }

/-- One step of a server, with the id generator before and after it. -/
def step (boost : Boost) (sId : UInt64) (srv : Server H) : ServerEvent → Option (UInt64 × Server H)
  | .run env =>
      if srv.serving then none
      else
        let (host, failure) := HttpServerImpl.run env ⟨sId, srv.impl⟩
        some (host.sId, { srv with impl := host.impl, serving := failure.isNone })
  | .stop => some (sId, { srv with impl := srv.impl.stop, serving := false })
  | .acceptDone r =>
      if 0 < srv.impl.pendingAccepts then
        some (sId, { srv with impl := { srv.impl with
          pendingAccepts := srv.impl.pendingAccepts - 1
          queuedAccepts := srv.impl.queuedAccepts ++ [r] } })
      else none
  | .onAccept =>
      match srv.impl.queuedAccepts with
      | [] => none
      | r :: rest =>
          if srv.serving then
            some (onAccept boost sId { srv with impl := { srv.impl with queuedAccepts := rest } } r)
          else none
  | .session k e =>
      match srv.sessions[k]? with
      | none => none
      | some (s, log) =>
          if e.starts && !srv.serving then none
          else
            (Session.step (srv.ctx boost) s e).map fun (s', o) =>
              (sId, srv.afterSession k s' log o)

/-- The outcomes of a step, as far as sessions, counters and identifiers are concerned. -/
inductive Step (boost : Boost) (sId : UInt64) (srv : Server H) :
    ServerEvent → UInt64 → Server H → Prop
  | started (env : Env) (impl : HttpServerImpl H) (serving : Bool)
      (hvalid : srv.impl.opts.Valid) (hopts : impl.opts = srv.impl.opts)
      (hrouter : impl.router = srv.impl.router) (hstats : impl.httpStatistics = {}) :
      Step boost sId srv (.run env) 0 { srv with impl := impl, serving := serving }
  | idle (e : ServerEvent) (impl : HttpServerImpl H) (serving : Bool)
      (hopts : impl.opts = srv.impl.opts) (hrouter : impl.router = srv.impl.router)
      (hstats : impl.httpStatistics = srv.impl.httpStatistics) :
      Step boost sId srv e sId { srv with impl := impl, serving := serving }
  | accepted (impl : HttpServerImpl H)
      (hopts : impl.opts = srv.impl.opts) (hrouter : impl.router = srv.impl.router)
      (hstats : impl.httpStatistics = srv.impl.httpStatistics.inc .session) :
      Step boost sId srv .onAccept (sId + 1)
        { srv with
          impl := impl
          sessions := srv.sessions ++ [Session.init (srv.ctx boost) (sId + 1)] }
  | session (k : Nat) (e : Event) (s s' : Session) (log o : List (Output H))
      (hk : srv.sessions[k]? = some (s, log))
      (hstep : Session.step (srv.ctx boost) s e = some (s', o)) :
      Step boost sId srv (.session k e) sId (srv.afterSession k s' log o)

lemma doAccept_frame (impl : HttpServerImpl H) :
    impl.doAccept.opts = impl.opts ∧ impl.doAccept.router = impl.router ∧
      impl.doAccept.httpStatistics = impl.httpStatistics := by
  unfold HttpServerImpl.doAccept
  split_ifs <;> exact ⟨rfl, rfl, rfl⟩

lemma stop_frame (impl : HttpServerImpl H) :
    impl.stop.opts = impl.opts ∧ impl.stop.router = impl.router ∧
      impl.stop.httpStatistics = impl.httpStatistics := by
  simp only [HttpServerImpl.stop, HttpServerImpl.closeAcceptor]
  split_ifs <;> exact ⟨rfl, rfl, rfl⟩

/-- **The list of outcomes is complete.** -/
theorem step_cases {boost : Boost} {sId sId' : UInt64} {srv srv' : Server H} {e : ServerEvent}
    (h : srv.step boost sId e = some (sId', srv')) : Step boost sId srv e sId' srv' := by
  cases e with
  | run env =>
      simp only [step] at h
      split_ifs at h
      obtain ⟨hopts, hrouter, hresets⟩ := run_resets env ⟨sId, srv.impl⟩
      cases hrun : HttpServerImpl.run env ⟨sId, srv.impl⟩ with
      | mk host failure =>
          rw [hrun] at h hopts hrouter hresets
          simp only [Option.some.injEq, Prod.mk.injEq] at h
          obtain ⟨rfl, rfl⟩ := h
          split_ifs at hresets with hvalid
          · obtain ⟨hid, hstats⟩ := hresets
            rw [hid]
            exact .started env host.impl _ hvalid hopts hrouter hstats
          · obtain rfl := hresets
            exact .idle _ srv.impl _ rfl rfl rfl
  | stop =>
      cases h
      obtain ⟨hopts, hrouter, hstats⟩ := stop_frame srv.impl
      exact .idle _ _ _ hopts hrouter hstats
  | acceptDone r =>
      simp only [step] at h
      split_ifs at h
      cases h
      exact .idle _ _ srv.serving rfl rfl rfl
  | onAccept =>
      simp only [step] at h
      cases hqueue : srv.impl.queuedAccepts with
      | nil => simp [hqueue] at h
      | cons r rest =>
          simp only [hqueue] at h
          split_ifs at h
          simp only [onAccept] at h
          split_ifs at h
          · cases h
            obtain ⟨hopts, hrouter, hstats⟩ := doAccept_frame
              { srv.impl with
                queuedAccepts := rest
                httpStatistics := srv.impl.httpStatistics.inc .session }
            exact .accepted _ hopts hrouter hstats
          · cases h
            obtain ⟨hopts, hrouter, hstats⟩ := doAccept_frame
              { srv.impl with queuedAccepts := rest }
            exact .idle _ _ srv.serving hopts hrouter hstats
  | session k e =>
      simp only [step] at h
      cases hk : srv.sessions[k]? with
      | none => simp [hk] at h
      | some t =>
          obtain ⟨s, log⟩ := t
          simp only [hk] at h
          split_ifs at h
          obtain ⟨⟨s', o⟩, hstep, hr⟩ := Option.map_eq_some_iff.mp h
          cases hr
          exact .session k e s s' log o hk hstep

end Server

/-! ## Processes -/

namespace Process

/-- A process whose servers have not been started. -/
def start (servers : List (HttpServerOptions × HttpRouter H)) : Process H :=
  ⟨0, servers.map fun (opts, router) => .new opts router⟩

/-- One step of one server. -/
def step (boost : Boost) (p : Process H) (e : ProcessEvent) : Option (Process H) :=
  match p.servers[e.server]? with
  | none => none
  | some srv =>
      (srv.step boost p.sId e.event).map fun (sId, srv') => ⟨sId, p.servers.set e.server srv'⟩

/-- The process as a transition system. -/
def lts (boost : Boost) : LTS (Process H) ProcessEvent := ⟨step boost⟩

/-- Every step is a step of one server. -/
lemma step_server {boost : Boost} {p p' : Process H} {e : ProcessEvent}
    (h : (lts boost).step p e = some p') :
    ∃ srv srv', p.servers[e.server]? = some srv ∧
      srv.step boost p.sId e.event = some (p'.sId, srv') ∧
      p'.servers = p.servers.set e.server srv' := by
  simp only [lts, step] at h
  cases hsrv : p.servers[e.server]? with
  | none => simp [hsrv] at h
  | some srv =>
      simp only [hsrv, Option.map_eq_some_iff] at h
      obtain ⟨⟨sId, srv'⟩, hstep, rfl⟩ := h
      exact ⟨srv, srv', rfl, hstep, rfl⟩

lemma step_cases {boost : Boost} {p p' : Process H} {e : ProcessEvent}
    (h : (lts boost).step p e = some p') :
    ∃ srv srv', p.servers[e.server]? = some srv ∧
      Server.Step boost p.sId srv e.event p'.sId srv' ∧
      p'.servers = p.servers.set e.server srv' := by
  obtain ⟨srv, srv', hsrv, hstep, hset⟩ := step_server h
  exact ⟨srv, srv', hsrv, Server.step_cases hstep, hset⟩

/-- The other servers are left alone. -/
lemma step_other {boost : Boost} {p p' : Process H} {e : ProcessEvent} {i : Nat}
    (h : (lts boost).step p e = some p') (hi : e.server ≠ i) : p'.servers[i]? = p.servers[i]? := by
  obtain ⟨srv, srv', -, -, hset⟩ := step_cases h
  rw [hset, List.getElem?_set_ne hi]

/-- The server an event is about. -/
lemma step_self {boost : Boost} {p p' : Process H} {e : ProcessEvent}
    (h : (lts boost).step p e = some p') :
    ∃ srv srv', p.servers[e.server]? = some srv ∧ p'.servers[e.server]? = some srv' ∧
      Server.Step boost p.sId srv e.event p'.sId srv' := by
  obtain ⟨srv, srv', hsrv, hstep, hset⟩ := step_cases h
  refine ⟨srv, srv', hsrv, ?_, hstep⟩
  rw [hset, List.getElem?_set_self (List.getElem?_eq_some_iff.mp hsrv).1]

/-- A step as the server at an index sees it: another server's, or one of its own. -/
lemma step_at {boost : Boost} {p p' : Process H} {e : ProcessEvent} (i : Nat)
    (h : (lts boost).step p e = some p') :
    (e.server ≠ i ∧ p'.servers[i]? = p.servers[i]?) ∨
      (e.server = i ∧ ∃ srv srv', p.servers[i]? = some srv ∧ p'.servers[i]? = some srv' ∧
        Server.Step boost p.sId srv e.event p'.sId srv') := by
  by_cases hi : e.server = i
  · obtain ⟨srv, srv', hsrv, hsrv', hstep⟩ := step_self h
    rw [hi] at hsrv hsrv'
    exact Or.inr ⟨hi, srv, srv', hsrv, hsrv', hstep⟩
  · exact Or.inl ⟨hi, step_other h hi⟩

/-- **The rule for one server.**  What holds of every server before it is started, and is
preserved by its own steps that meet a condition, holds of the server at an index in every run in
which its steps meet the condition. -/
theorem run_server {boost : Boost} {P : Server H → Prop} {C : Process H → ProcessEvent → Prop}
    [∀ p e, Decidable (C p e)] {servers : List (HttpServerOptions × HttpRouter H)} {i : Nat}
    (hnew : ∀ opts router, P (.new opts router))
    (hstep : ∀ p e srv sId' srv', C p e → e.server = i → p.servers[i]? = some srv → P srv →
      Server.Step boost p.sId srv e.event sId' srv' → P srv') :
    ∀ es p, ((lts boost).restrict C).run (start servers) es = some p →
      ∀ srv, p.servers[i]? = some srv → P srv := by
  refine LTS.run_induction (P := fun _ (p : Process H) =>
    ∀ srv, p.servers[i]? = some srv → P srv) ?_ ?_
  · intro srv hsrv
    simp only [start, List.getElem?_map, Option.map_eq_some_iff] at hsrv
    obtain ⟨c, -, rfl⟩ := hsrv
    exact hnew c.1 c.2
  · intro es p e p' _ ih hrestricted srv' hsrv'
    obtain ⟨hC, hs⟩ := LTS.restrict_step.mp hrestricted
    rcases step_at i hs with ⟨-, hsame⟩ | ⟨hi, srv, srv'', hsrv, hsrv'', hcases⟩
    · exact ih srv' (hsame ▸ hsrv')
    · obtain rfl := Option.some.inj (hsrv'.symm.trans hsrv'')
      exact hstep p e srv _ _ hC hi hsrv (ih srv hsrv) hcases

/-- The session at a position, with its log. -/
def sessionAt (p : Process H) (i k : Nat) : Option (Session × List (Output H)) :=
  (p.servers[i]?).bind fun srv => srv.sessions[k]?

/-- No copy of a writer is used after one of them was, in any session. -/
def singleUse (p : Process H) (e : ProcessEvent) : Bool :=
  match e.event with
  | .session k e' => (p.sessionAt e.server k).all fun t => t.1.SingleUse e'
  | _ => true

end Process

/-! ## Sessions in a process -/

lemma Session.id_step {ctx : Context H} {s s' : Session} {e : Event} {o : List (Output H)}
    (h : Session.Step ctx s e s' o) : s'.id = s.id := by
  cases h <;> rfl

namespace Server

variable {boost : Boost} {srv srv' : Server H} {sId sId' : UInt64} {e : ServerEvent}

/-- Every session of the server is where a run of single use of its own leads. -/
def SessionsRun (boost : Boost) (srv : Server H) : Prop :=
  ∀ t ∈ srv.sessions, ∃ es,
    (Session.singleUse (srv.ctx boost)).run (Session.init (srv.ctx boost) t.1.id) es = some t

/-- The options and handlers of a server never change. -/
lemma ctx_step (h : Step boost sId srv e sId' srv') : srv'.ctx boost = srv.ctx boost := by
  cases h with
  | started _ impl _ _ hopts hrouter => simp only [ctx, hopts, hrouter]
  | idle _ impl _ hopts hrouter => simp only [ctx, hopts, hrouter]
  | accepted impl hopts hrouter => simp only [ctx, hopts, hrouter]
  | session => rfl

/-- **The rule for the sessions of a server.**  What holds of a new session and is preserved by
the steps of a session is preserved by the steps of the server for all its sessions. -/
lemma Step.forall_sessions {P : Session × List (Output H) → Prop}
    (hstep : Step boost sId srv e sId' srv') (h : ∀ t ∈ srv.sessions, P t)
    (hinit : P (Session.init (srv.ctx boost) (sId + 1)))
    (hsession : ∀ k e' s s' log o, e = .session k e' → srv.sessions[k]? = some (s, log) →
      P (s, log) → Session.step (srv.ctx boost) s e' = some (s', o) → P (s', log ++ o)) :
    ∀ t ∈ srv'.sessions, P t := by
  intro t ht
  cases hstep with
  | started | idle => exact h t ht
  | accepted impl =>
      rcases List.mem_append.mp ht with ht | ht
      · exact h t ht
      · obtain rfl := List.mem_singleton.mp ht
        exact hinit
  | session k e' s s' log o hk hs =>
      rcases List.mem_or_eq_of_mem_set ht with ht | rfl
      · exact h t ht
      · exact hsession k e' s s' log o rfl hk (h (s, log) (List.mem_of_getElem? hk)) hs

lemma SessionsRun.step (h : srv.SessionsRun boost)
    (hsingle : ∀ k e' t, e = .session k e' → srv.sessions[k]? = some t → t.1.SingleUse e')
    (hstep : Step boost sId srv e sId' srv') : srv'.SessionsRun boost := by
  unfold SessionsRun
  rw [ctx_step hstep]
  refine hstep.forall_sessions h ⟨[], rfl⟩ ?_
  rintro k e' s s' log o rfl hk ⟨es, hes⟩ hs
  have hid : s'.id = s.id := Session.id_step (Session.step_cases hs).2
  have hlast : (Session.singleUse (srv.ctx boost)).step (s, log) e' = some (s', log ++ o) :=
    LTS.restrict_step.mpr ⟨hsingle k e' _ rfl hk, LTS.logged_step.mpr ⟨o, hs, rfl⟩⟩
  refine ⟨es ++ [e'], ?_⟩
  rw [hid, LTS.run_append, hes]
  simpa using hlast

/-! ## Totals -/

/-- The sum of a number over the sessions of a server. -/
def total (srv : Server H) (f : Session × List (Output H) → Nat) : Nat := (srv.sessions.map f).sum

lemma sum_map_set {α : Type} (f : α → Nat) (l : List α) (k : Nat) (a b : α)
    (h : l[k]? = some a) : ((l.set k b).map f).sum + f a = (l.map f).sum + f b := by
  induction l generalizing k with
  | nil => simp at h
  | cons x l ih =>
      cases k with
      | zero =>
          obtain rfl : x = a := Option.some.inj h
          simp only [List.set_cons_zero, List.map_cons, List.sum_cons]
          omega
      | succ k =>
          have hrest := ih k h
          simp only [List.set_cons_succ, List.map_cons, List.sum_cons]
          omega

lemma total_afterSession {k : Nat} {s : Session} {log : List (Output H)}
    (hk : srv.sessions[k]? = some (s, log)) (s' : Session) (o : List (Output H))
    (f : Session × List (Output H) → Nat) :
    (srv.afterSession k s' log o).total f + f (s, log) = srv.total f + f (s', log ++ o) :=
  sum_map_set f srv.sessions k _ _ hk

lemma total_append (srv : Server H) (impl : HttpServerImpl H) (t : Session × List (Output H))
    (f : Session × List (Output H) → Nat) :
    Server.total { srv with impl := impl, sessions := srv.sessions ++ [t] } f =
      srv.total f + f t := by
  simp [total]

lemma le_total {k : Nat} {t : Session × List (Output H)} (hk : srv.sessions[k]? = some t)
    (f : Session × List (Output H) → Nat) : f t ≤ srv.total f :=
  List.le_sum_of_mem (List.mem_map_of_mem (List.mem_of_getElem? hk))

end Server

/-- In a run of single use every session of every server is where a run of its own leads. -/
theorem Process.run_sessions {boost : Boost} {C : Process H → ProcessEvent → Prop}
    [∀ p e, Decidable (C p e)] (hC : ∀ p e, C p e → p.singleUse e = true)
    {servers : List (HttpServerOptions × HttpRouter H)} {es : List ProcessEvent} {p : Process H}
    (h : ((lts boost).restrict C).run (start servers) es = some p) {i : Nat} {srv : Server H}
    (hsrv : p.servers[i]? = some srv) : srv.SessionsRun boost := by
  refine run_server (P := fun srv => srv.SessionsRun boost) (i := i) ?_ ?_ es p h srv hsrv
  · intro opts router t ht
    cases ht
  · intro p e srv sId' srv' hcond hi hsrv hruns hstep
    refine hruns.step ?_ hstep
    rintro k e' t hevent hk
    have hsingle := hC p e hcond
    have hat : p.sessionAt i k = some t := by simp [sessionAt, hsrv, hk]
    simpa [singleUse, hevent, hi, hat] using hsingle

end HttpServer
