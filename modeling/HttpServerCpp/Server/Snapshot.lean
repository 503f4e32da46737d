import HttpServerCpp.Core.Collect
import HttpServerCpp.Server.Accounting

/-!
# What `getHttpStatistics` returns

`getHttpStatistics` loads nine counters one after the other while the sessions go on updating
them, so what it returns need not be the counters of any moment.

* `collecting` is a process with an application that keeps calling it on one of the servers.
* `value_mono` says that the counters that are only incremented grow from one moment to a later
  one, and `working_le_reads` what holds at every moment.
* The counters are 64-bit words in the program and numbers here.  `word_eq_value`: in a run of
  fewer than `2 ^ 64` steps the words hold the numbers.
* `snapshots_consistent` carries this to the values returned: `handle_request_cnt_` and
  `working_handler_cnt_` are loaded before `read_success_cnt_`.
-/

namespace HttpServer

variable {H : Type}

namespace HttpStatistics

/-- One statement of `getHttpStatistics`, which loads one counter. -/
def load (st : HttpStatisticsInternal) (statics : HttpStatistics) : Counter → HttpStatistics
  | .handleRequest => { statics with handlerRequestCnt := st.handleRequestCnt }
  | .workingHandler => { statics with workingHandlerCnt := st.workingHandlerCnt }
  | .readTimeout => { statics with readTimeoutCnt := st.readTimeoutCnt }
  | .readSuccess => { statics with readSuccessCnt := st.readSuccessCnt }
  | .readFail => { statics with readFailCnt := st.readFailCnt }
  | .writeTimeout => { statics with writeTimeoutCnt := st.writeTimeoutCnt }
  | .writeSuccess => { statics with writeSuccessCnt := st.writeSuccessCnt }
  | .writeFail => { statics with writeFailCnt := st.writeFailCnt }
  | .session => { statics with sessionCnt := st.sessionCnt }

/-- The value reported for a counter. -/
def value (statics : HttpStatistics) : Counter → Nat
  | .session => statics.sessionCnt.toNat
  | .readTimeout => statics.readTimeoutCnt
  | .readSuccess => statics.readSuccessCnt
  | .readFail => statics.readFailCnt
  | .writeTimeout => statics.writeTimeoutCnt
  | .writeSuccess => statics.writeSuccessCnt
  | .writeFail => statics.writeFailCnt
  | .handleRequest => statics.handlerRequestCnt
  | .workingHandler => statics.workingHandlerCnt

lemma value_load_self (st : HttpStatisticsInternal) (statics : HttpStatistics) (c : Counter) :
    (load st statics c).value c = st.value c := by
  cases c <;> rfl

lemma value_load_other (st : HttpStatisticsInternal) (statics : HttpStatistics) {c c' : Counter}
    (h : c' ≠ c) : (load st statics c).value c' = statics.value c' := by
  cases c <;> cases c' <;> first | rfl | contradiction

end HttpStatistics

/-- `HttpServerImpl::getHttpStatistics`: the counters it loads, in their order. -/
def getHttpStatistics : List Counter :=
  [.handleRequest, .workingHandler, .readTimeout, .readSuccess, .readFail, .writeTimeout,
    .writeSuccess, .writeFail, .session]

lemma mem_getHttpStatistics (c : Counter) : c ∈ getHttpStatistics := by
  cases c <;> decide

lemma nodup_getHttpStatistics : getHttpStatistics.Nodup := by decide

/-! ## The counters between two moments -/

namespace Server

variable {boost : Boost} {sId sId' : UInt64} {srv srv' : Server H} {e : ServerEvent}

/-- What every session has counted agrees with its state. -/
def AllTallied (srv : Server H) : Prop := ∀ t ∈ srv.sessions, t.1.Tallied t.2

lemma AllTallied.step (h : srv.AllTallied) (hstep : Step boost sId srv e sId' srv') :
    srv'.AllTallied := by
  refine hstep.forall_sessions h ⟨rfl, rfl, rfl, rfl⟩ ?_
  intro k e' s s' log o _ _ htallied hs
  exact htallied.step (Session.step_cases hs).2

/-- A step never takes a cumulative counter back, unless it resets it when there are sessions. -/
lemma Summed.value_step (h : srv.Summed) (hreset : ∀ env, e = .run env → srv.sessions = [])
    (hstep : Step boost sId srv e sId' srv') {c : Counter} (hc : c.Cumulative) :
    srv.impl.httpStatistics.value c ≤ srv'.impl.httpStatistics.value c := by
  cases hstep with
  | started env impl serving hvalid hopts hrouter hstats =>
      rw [h.cumulative c hc, total, hreset env rfl]
      exact Nat.zero_le _
  | idle _ impl serving hopts hrouter hstats => exact le_of_eq (congrArg (·.value c) hstats.symm)
  | accepted impl hopts hrouter hstats =>
      rcases hc with ⟨hsession, hworking⟩
      rw [hstats]
      cases c <;> first | exact Nat.le_refl _ | contradiction
  | session k e' s s' log o hk hs =>
      show _ ≤ (srv.impl.httpStatistics.updateAll o).value c
      rw [value_updateAll hc]
      exact Nat.le_add_right _ _

/-- A step of a server takes a cumulative counter one further at most. -/
lemma value_step_le (hstep : Step boost sId srv e sId' srv') {c : Counter} (hc : c.Cumulative) :
    srv'.impl.httpStatistics.value c ≤ srv.impl.httpStatistics.value c + 1 := by
  cases hstep with
  | started env impl serving hvalid hopts hrouter hstats =>
      show impl.httpStatistics.value c ≤ _
      rw [hstats]
      cases c <;> exact Nat.zero_le _
  | idle _ impl serving hopts hrouter hstats =>
      show impl.httpStatistics.value c ≤ _
      rw [hstats]
      exact Nat.le_succ _
  | accepted impl hopts hrouter hstats =>
      obtain ⟨hsession, hworking⟩ := hc
      show impl.httpStatistics.value c ≤ _
      rw [hstats]
      cases c <;> first | exact Nat.le_succ _ | contradiction
  | session k e' s s' log o hk hs =>
      show (srv.impl.httpStatistics.updateAll o).value c ≤ _
      rw [value_updateAll hc]
      exact Nat.add_le_add_left (Session.counted_le_one (Session.step_cases hs).2 c) _

/-- A request in its handler has been counted as read and not yet as handled. -/
lemma Summed.working_le_reads (h : srv.Summed) (htallied : srv.AllTallied) :
    srv.impl.httpStatistics.handleRequestCnt + srv.impl.httpStatistics.workingHandlerCnt ≤
      srv.impl.httpStatistics.readSuccessCnt := by
  rw [h.reads htallied, h.working]
  refine Nat.add_le_add_left (total_le ?_) _
  intro t _
  rw [Session.inHandler, Session.busy]
  cases t.1.strand <;> decide

end Server

namespace Process

/-- The counters of the server at an index. -/
def statistics (p : Process H) (i : Nat) : HttpStatisticsInternal :=
  (p.servers[i]?).elim {} fun srv => srv.impl.httpStatistics

/-- The steps in which the server at an index is started only before it has constructed a session:
its first `run()` that serves anyone lasts. -/
def firstStart (i : Nat) (p : Process H) (e : ProcessEvent) : Bool :=
  e.server ≠ i ||
    match e.event, p.servers[i]? with
    | .run _, some srv => srv.sessions.isEmpty
    | _, _ => true

/-- A process in which the server at an index is in its first `run()`. -/
def firstRunning (boost : Boost) (i : Nat) : LTS (Process H) ProcessEvent :=
  (lts boost).restrict fun p e => firstStart i p e = true

/-- A load of `getHttpStatistics` of the server at an index. -/
def load (i : Nat) (p : Process H) : HttpStatistics → Counter → HttpStatistics :=
  HttpStatistics.load (p.statistics i)

/-- The process with an application that calls `getHttpStatistics` of that server. -/
def collecting (boost : Boost) (i : Nat) :
    LTS (Collecting (Process H) Counter HttpStatistics) (Option ProcessEvent) :=
  (firstRunning boost i).collect (load i) getHttpStatistics {}

variable {boost : Boost} {servers : List (HttpServerOptions × HttpRouter H)} {i : Nat}
  {p p' : Process H}

lemma reset_of_firstStart {e : ProcessEvent} {srv : Server H} (h : firstStart i p e = true)
    (hi : e.server = i) (hsrv : p.servers[i]? = some srv) :
    ∀ env, e.event = .run env → srv.sessions = [] := by
  intro env hevent
  simpa [firstStart, hi, hsrv, hevent] using h

/-- What holds of the counters and of the sessions at every moment. -/
lemma summed_of_reaches (h : (firstRunning boost i).Reaches (start servers) p) {srv : Server H}
    (hsrv : p.servers[i]? = some srv) : srv.Summed ∧ srv.AllTallied := by
  rcases h with ⟨es, hes⟩
  refine run_server (P := fun srv => srv.Summed ∧ srv.AllTallied) ?_ ?_ es p hes srv hsrv
  · intro opts router
    exact ⟨Server.summed_of_reset rfl rfl, nofun⟩
  · rintro p e srv sId' srv' hfirst hi hsrv ⟨hsummed, htallied⟩ hstep
    exact ⟨hsummed.step (reset_of_firstStart hfirst hi hsrv) hstep, htallied.step hstep⟩

/-- **The counters that are only incremented grow** from a moment to a later one. -/
lemma value_mono {c : Counter} (hc : c.Cumulative)
    (hp : (firstRunning boost i).Reaches (start servers) p)
    (h : (firstRunning boost i).Reaches p p') :
    (p.statistics i).value c ≤ (p'.statistics i).value c := by
  rcases h with ⟨es, hes⟩
  refine LTS.run_induction (P := fun _ (q : Process H) =>
    (p.statistics i).value c ≤ (q.statistics i).value c) (Nat.le_refl _) ?_ es p' hes
  intro es q e q' hrun ih hstep
  refine Nat.le_trans ih ?_
  obtain ⟨hfirst, hs⟩ := LTS.restrict_step.mp hstep
  rcases step_at i hs with ⟨-, hsame⟩ | ⟨hi, srv, srv', hsrv, hsrv', hcases⟩
  · rw [statistics, statistics, hsame]
  · have hsummed := (summed_of_reaches (hp.trans ⟨es, hrun⟩) hsrv).1
    have hle := hsummed.value_step (reset_of_firstStart hfirst hi hsrv) hcases hc
    simpa only [statistics, hsrv, hsrv', Option.elim_some] using hle

/-- At every moment the requests handled and those in their handlers have been read. -/
lemma working_le_reads (h : (firstRunning boost i).Reaches (start servers) p) :
    (p.statistics i).value .handleRequest + (p.statistics i).value .workingHandler ≤
      (p.statistics i).value .readSuccess := by
  cases hsrv : p.servers[i]? with
  | none =>
      rw [statistics, hsrv]
      exact Nat.le_refl _
  | some srv =>
      obtain ⟨hsummed, htallied⟩ := summed_of_reaches h hsrv
      rw [statistics, hsrv]
      exact hsummed.working_le_reads htallied

/-! ## The words that hold the counters -/

lemma statistics_start : (start servers).statistics i = {} := by
  rw [statistics, start, List.getElem?_map]
  cases servers[i]? <;> rfl

/-- In no run is a cumulative counter above the number of steps. -/
lemma value_le_length {c : Counter} (hc : c.Cumulative) :
    ∀ (es : List ProcessEvent) (p : Process H), (lts boost).run (start servers) es = some p →
      (p.statistics i).value c ≤ es.length := by
  refine LTS.run_induction ?_ ?_
  · rw [statistics_start]
    cases c <;> exact Nat.zero_le _
  · intro es p e p' hrun ih hstep
    rw [List.length_append, List.length_singleton]
    rcases step_at i hstep with ⟨-, hsame⟩ | ⟨-, srv, srv', hsrv, hsrv', hcases⟩
    · rw [statistics, hsame]
      exact Nat.le_succ_of_le ih
    · have hle := Server.value_step_le hcases hc
      rw [statistics, hsrv, Option.elim_some] at ih
      rw [statistics, hsrv', Option.elim_some]
      omega

/-- **The words hold the numbers**, in every run of fewer than `2 ^ 64` steps in which the server is
in its first `run()`. -/
theorem word_eq_value (es : List ProcessEvent) (p : Process H)
    (h : (firstRunning boost i).run (start servers) es = some p) (hlength : es.length < 2 ^ 64)
    (c : Counter) : ((p.statistics i).word c).toNat = (p.statistics i).value c := by
  have hfits : (p.statistics i).value c < 2 ^ 64 := by
    have hrun := LTS.run_of_restrict es p h
    by_cases hc : c.Cumulative
    · exact lt_of_le_of_lt (value_le_length hc es p hrun) hlength
    · by_cases hsession : c = .session
      · subst hsession
        exact lt_of_lt_of_le (p.statistics i).sessionCnt.toNat_lt (by decide)
      · -- every request in its handler was read
        have hworking : c = .workingHandler := by
          by_contra hne
          exact hc ⟨hsession, hne⟩
        have hcumulative : Counter.Cumulative .readSuccess := ⟨nofun, nofun⟩
        have hread : (p.statistics i).value .readSuccess ≤ es.length :=
          value_le_length hcumulative es p hrun
        have hle := working_le_reads ⟨es, h⟩
        rw [hworking]
        omega
  rw [HttpStatisticsInternal.word, UInt64.toNat_ofNat', Nat.mod_eq_of_lt hfits]

/-! ## The values returned -/

/-- A component of a value returned is the counter at the moment of its load. -/
lemma value_collected {call : List (Process H × Counter)}
    (hcall : call.map Prod.snd = getHttpStatistics) {m : Process H × Counter} (hm : m ∈ call) :
    (LTS.collected (load i) {} call).value m.2 = (m.1.statistics i).value m.2 := by
  refine LTS.get_collected HttpStatistics.value (fun p c => (p.statistics i).value c) ?_ ?_ ?_ hm
  · intro p statics c
    exact HttpStatistics.value_load_self (p.statistics i) statics c
  · intro p statics c c' hne
    exact HttpStatistics.value_load_other (p.statistics i) statics hne
  · rw [hcall]
    exact nodup_getHttpStatistics

/-- Every counter is loaded in a complete call. -/
lemma exists_moment {call : List (Process H × Counter)}
    (hcall : call.map Prod.snd = getHttpStatistics) (c : Counter) : ∃ q, (q, c) ∈ call := by
  have hc := mem_getHttpStatistics c
  rw [← hcall] at hc
  obtain ⟨⟨q, _⟩, hm, rfl⟩ := List.mem_map.mp hc
  exact ⟨q, hm⟩

/-- The three counters of the inequality are loaded at moments that follow each other: between
them it can only become weaker. -/
lemma working_le_collected {call : List (Process H × Counter)}
    (hcall : call.map Prod.snd = getHttpStatistics)
    (hpast : ∀ m ∈ call, (firstRunning boost i).Reaches (start servers) m.1)
    (hordered : call.Pairwise fun m m' => (firstRunning boost i).Reaches m.1 m'.1) :
    let statics := LTS.collected (load i) {} call
    statics.value .handleRequest + statics.value .workingHandler ≤ statics.value .readSuccess := by
  have horder : [.handleRequest, .workingHandler, .readSuccess].Sublist (call.map Prod.snd) := by
    rw [hcall]
    decide
  obtain ⟨three, hthree, hmap⟩ := List.sublist_map_iff.mp horder
  obtain ⟨⟨q₁, _⟩, rest, rfl, rfl, hrest⟩ := List.map_eq_cons_iff.mp hmap.symm
  obtain ⟨⟨q₂, _⟩, last, rfl, rfl, hlast⟩ := List.map_eq_cons_iff.mp hrest
  obtain ⟨⟨q₃, _⟩, _, rfl, rfl, -⟩ := List.map_eq_cons_iff.mp hlast
  have h₁ := hthree.subset List.mem_cons_self
  have h₂ := hthree.subset (List.mem_cons_of_mem _ List.mem_cons_self)
  have h₃ := hthree.subset (List.mem_cons_of_mem _ (List.mem_cons_of_mem _ List.mem_cons_self))
  obtain ⟨hfirst, hsecond⟩ := List.pairwise_cons.mp (hordered.sublist hthree)
  have h₁₂ := hfirst _ List.mem_cons_self
  have h₂₃ := (List.pairwise_cons.mp hsecond).1 _ List.mem_cons_self
  have hhandled : Counter.Cumulative .handleRequest := ⟨nofun, nofun⟩
  have hreads : Counter.Cumulative .readSuccess := ⟨nofun, nofun⟩
  intro statics
  calc statics.value .handleRequest + statics.value .workingHandler
      = (q₁.statistics i).value .handleRequest + (q₂.statistics i).value .workingHandler := by
        rw [value_collected hcall h₁, value_collected hcall h₂]
    _ ≤ (q₂.statistics i).value .handleRequest + (q₂.statistics i).value .workingHandler :=
        Nat.add_le_add_right (value_mono hhandled (hpast _ h₁) h₁₂) _
    _ ≤ (q₂.statistics i).value .readSuccess := working_le_reads (hpast _ h₂)
    _ ≤ (q₃.statistics i).value .readSuccess := value_mono hreads (hpast _ h₂) h₂₃
    _ = statics.value .readSuccess := (value_collected hcall h₃).symm

/-- **The values returned are consistent**: in whatever way the loads of the calls fall between
the steps of a process in which the server is in its first `run()`. -/
theorem snapshots_consistent (boost : Boost) (servers : List (HttpServerOptions × HttpRouter H))
    (i : Nat) (es : List (Option ProcessEvent))
    (t : Collecting (Process H) Counter HttpStatistics)
    (h : (collecting boost i).run (LTS.collectFrom getHttpStatistics {} (start servers)) es =
      some t) :
    (∀ statics ∈ t.returned,
      statics.handlerRequestCnt + statics.workingHandlerCnt ≤ statics.readSuccessCnt) ∧
    t.returned.Pairwise fun statics statics' =>
      ∀ c : Counter, c.Cumulative → statics.value c ≤ statics'.value c := by
  obtain ⟨calls, current, hcalls⟩ := LTS.run_collect es t h
  rw [hcalls.returned]
  constructor
  · intro statics hstatics
    obtain ⟨call, hcall, rfl⟩ := List.mem_map.mp hstatics
    exact working_le_collected (hcalls.complete call hcall)
      (fun m hm => hcalls.reached_of_mem hcall hm) (hcalls.ordered_call call hcall)
  · rw [List.pairwise_map]
    refine hcalls.ordered_calls.imp_of_mem ?_
    intro call call' hcall hcall' hlater c hc
    obtain ⟨q, hq⟩ := exists_moment (hcalls.complete call hcall) c
    obtain ⟨q', hq'⟩ := exists_moment (hcalls.complete call' hcall') c
    calc HttpStatistics.value _ c
        = (q.statistics i).value c := value_collected (hcalls.complete call hcall) hq
      _ ≤ (q'.statistics i).value c :=
          value_mono hc (hcalls.reached_of_mem hcall hq) (hlater _ hq _ hq')
      _ = HttpStatistics.value _ c := (value_collected (hcalls.complete call' hcall') hq').symm

end Process

/-- `GET /hello` is read while the first call is loading the counters and handled while the second
one is. -/
def helloSnapshots : List (Option ProcessEvent) :=
  [some ⟨0, .run {}⟩, some ⟨0, .acceptDone .connection⟩, some ⟨0, .onAccept⟩, none,
    some ⟨0, .session 0 (.onRead (.message (getRequest "/hello")))⟩,
    some ⟨0, .session 0 (.processRequest 0)⟩, none, none, none, none, none, none, none, none,
    none, none, some ⟨0, .session 0 .handleReturns⟩, some ⟨0, .session 0 .countHandled⟩, none,
    none, none, none, none, none, none, none, none]

namespace Process

theorem snapshots_consistent_hello :
    ∃ t s s', (collecting plainBoost 0).run
        (LTS.collectFrom getHttpStatistics {} (start helloServers)) helloSnapshots = some t ∧
      t.returned = [s, s'] ∧ s.workingHandlerCnt = 1 ∧ s'.workingHandlerCnt = 0 ∧
      s.handlerRequestCnt + s.workingHandlerCnt ≤ s.readSuccessCnt ∧
      ∀ c : Counter, c.Cumulative → s.value c ≤ s'.value c := by
  refine ⟨_, _, _, rfl, rfl, rfl, rfl, ?_⟩
  have h := snapshots_consistent plainBoost helloServers 0 helloSnapshots _ rfl
  exact ⟨h.1 _ List.mem_cons_self, (List.pairwise_cons.mp h.2).1 _ List.mem_cons_self⟩

end Process

end HttpServer
