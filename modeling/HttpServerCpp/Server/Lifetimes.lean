import HttpServerCpp.Server.Process
import HttpServerCpp.Session.InFlight

/-!
# Counting live sessions

`session_cnt_` is incremented by the constructor of a session and decremented by its destructor,
at whatever time the last owner lets go of it.  `run()` stores zero into it, also when sessions of
an earlier `run()` are still alive: these are then not counted, and their destructors take the
counter below zero.

`sessionCnt_eq_live` shows that nothing else makes the counter wrong.
-/

namespace HttpServer

variable {H : Type}

namespace Server

/-- The number of sessions constructed and not yet destroyed. -/
def live (srv : Server H) : Nat := srv.total fun t => t.1.alive.toNat

/-- `session_cnt_` is the number of live sessions, so that the destructor of one finds it
positive. -/
structure Counted (srv : Server H) : Prop where
  eq_live : srv.impl.httpStatistics.sessionCnt.toNat = srv.live
  positive : ∀ t ∈ srv.sessions, t.1.alive = true → srv.impl.httpStatistics.sessionCnt ≠ 0

lemma not_alive_of_live {srv : Server H} (h : srv.live = 0) {k : Nat}
    {t : Session × List (Output H)} (hk : srv.sessions[k]? = some t) : ¬ t.1.alive = true := by
  intro halive
  have hle := le_total hk fun t => t.1.alive.toNat
  simp only [halive, Bool.toNat_true] at hle
  unfold live at h
  omega

lemma counted_of_eq {srv : Server H} (h : srv.impl.httpStatistics.sessionCnt.toNat = srv.live) :
    srv.Counted := by
  refine ⟨h, ?_⟩
  rintro t ht halive hzero
  obtain ⟨k, hk⟩ := List.mem_iff_getElem?.mp ht
  rw [hzero] at h
  exact not_alive_of_live h.symm hk halive

end Server

/-- What a step does to `session_cnt_`: only the destruction of the session changes it. -/
lemma Session.sessionCnt_step {ctx : Context H} {s s' : Session} {e : Event}
    {o : List (Output H)} (halive : s.alive = true) (h : Session.Step ctx s e s' o)
    (st : HttpStatisticsInternal) :
    s'.alive = true ∧ (st.updateAll o).sessionCnt = st.sessionCnt ∨
      s'.alive = false ∧ (st.updateAll o).sessionCnt = st.sessionCnt - 1 := by
  cases h with
  | destroyed => exact .inr ⟨rfl, rfl⟩
  | _ => exact .inl ⟨halive, rfl⟩

namespace Process

/-- The steps of the server at an index that keep its count: it is not started while one of its
sessions is alive, and it does not accept so many connections that the counter is full. -/
def countable (i : Nat) (p : Process H) (e : ProcessEvent) : Bool :=
  e.server ≠ i ||
    match e.event, p.servers[i]? with
    | .run _, some srv => !srv.impl.opts.Valid || srv.live = 0
    | .onAccept, some srv => srv.live + 1 < 2 ^ 32
    | _, _ => true

/-- One step of a server keeps its count. -/
lemma counted_step {boost : Boost} {i : Nat} {p : Process H} {e : ProcessEvent}
    {srv srv' : Server H} {sId' : UInt64} (hcountable : p.countable i e = true)
    (hi : e.server = i) (hsrv : p.servers[i]? = some srv)
    (h : srv.impl.httpStatistics.sessionCnt.toNat = srv.live)
    (hstep : Server.Step boost p.sId srv e.event sId' srv') :
    srv'.impl.httpStatistics.sessionCnt.toNat = srv'.live := by
  obtain ⟨j, event⟩ := e
  obtain rfl : j = i := hi
  simp only [countable, ne_eq, not_true_eq_false, decide_false, Bool.false_or] at hcountable
  cases hstep with
  | started env impl serving hvalid hopts hrouter hstats =>
      have hnone : srv.live = 0 := by simpa [hsrv, hvalid] using hcountable
      rw [hstats]
      exact hnone.symm
  | idle _ impl serving hopts hrouter hstats =>
      rw [hstats]
      exact h
  | accepted impl hopts hrouter hstats =>
      have hroom : srv.live + 1 < 2 ^ 32 := by simpa [hsrv] using hcountable
      have hlive := Server.total_append srv impl (Session.init (srv.ctx boost) (p.sId + 1))
        fun t => t.1.alive.toNat
      rw [hstats]
      refine Eq.trans ?_ hlive.symm
      show (srv.impl.httpStatistics.sessionCnt + 1).toNat = srv.live + 1
      rw [UInt32.toNat_add, h]
      exact Nat.mod_eq_of_lt hroom
  | session k e' s s' log o hk hs =>
      have hlive := Server.total_afterSession hk s' o fun t => t.1.alive.toNat
      obtain ⟨halive, hcases⟩ := Session.step_cases hs
      have hle := Server.le_total hk fun t => t.1.alive.toNat
      simp only [halive, Bool.toNat_true] at hlive hle
      show (srv.impl.httpStatistics.updateAll o).sessionCnt.toNat = _
      unfold Server.live at h ⊢
      rcases Session.sessionCnt_step halive hcases srv.impl.httpStatistics with
        ⟨halive', hcnt⟩ | ⟨halive', hcnt⟩
      · rw [halive', Bool.toNat_true] at hlive
        rw [hcnt, h]
        omega
      · rw [halive', Bool.toNat_false] at hlive
        have hone : (1 : UInt32) ≤ srv.impl.httpStatistics.sessionCnt := by
          rw [UInt32.le_iff_toNat_le, h]
          exact hle
        rw [hcnt, UInt32.toNat_sub_of_le _ _ hone, h]
        show _ - 1 = _
        omega

/-- **`session_cnt_` is the number of live sessions** in every run in which the server is started
only while none of its sessions is alive. -/
theorem sessionCnt_eq_live (boost : Boost) (servers : List (HttpServerOptions × HttpRouter H))
    (i : Nat) (es : List ProcessEvent) (p : Process H)
    (h : ((lts boost).restrict fun p e => countable i p e = true).run (start servers) es = some p)
    (srv : Server H) (hsrv : p.servers[i]? = some srv) : srv.Counted := by
  refine Server.counted_of_eq (run_server
    (P := fun srv => srv.impl.httpStatistics.sessionCnt.toNat = srv.live) ?_ ?_ es p h srv hsrv)
  · intro opts router
    rfl
  · intro p e srv sId' srv' hcountable hi hsrv h hstep
    exact counted_step hcountable hi hsrv h hstep

end Process

/-- One server with the handler of `/hello`. -/
def helloServers : List (HttpServerOptions × HttpRouter Unit) := [({}, helloContext.router)]

/-- The server is started, accepts a connection and reads `GET /hello`; its handler returns and
keeps the writer. -/
def keptWriter : List ProcessEvent :=
  [⟨0, .run {}⟩, ⟨0, .acceptDone .connection⟩, ⟨0, .onAccept⟩,
    ⟨0, .session 0 (.onRead (.message (getRequest "/hello")))⟩,
    ⟨0, .session 0 (.processRequest 0)⟩, ⟨0, .session 0 .handleReturns⟩,
    ⟨0, .session 0 .countHandled⟩]

namespace Process

theorem sessionCnt_eq_live_hello :
    ∃ p srv, ((lts plainBoost).restrict fun p e => countable 0 p e = true).run
        (start helloServers) keptWriter = some p ∧ p.servers[0]? = some srv ∧ srv.Counted :=
  ⟨_, _, rfl, rfl, sessionCnt_eq_live plainBoost helloServers 0 keptWriter _ rfl _ rfl⟩

/-- The server is stopped and started again while the handler of `/hello` keeps its writer: one
session is alive and none is counted, and when the writer is dropped the counter wraps. -/
theorem restart_miscounts :
    ∃ p q srv srv', (lts plainBoost).run (start helloServers)
        (keptWriter ++ [⟨0, .stop⟩, ⟨0, .run {}⟩]) = some p ∧
      p.servers[0]? = some srv ∧ srv.live = 1 ∧ srv.impl.httpStatistics.sessionCnt = 0 ∧
      ¬ srv.Counted ∧
      (lts plainBoost).step p ⟨0, .session 0 .destroy⟩ = some q ∧ q.servers[0]? = some srv' ∧
      srv'.impl.httpStatistics.sessionCnt = 4294967295 :=
  ⟨_, _, _, _, rfl, rfl, rfl, rfl, fun h => absurd h.eq_live (by decide), rfl, rfl, rfl⟩

end Process

end HttpServer
