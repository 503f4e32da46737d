import HttpServerCpp.Server.Lifetimes
import HttpServerCpp.Session.Counting

/-!
# What the statistics say

While a server's first `run()` lasts its counters are never reset, and each is the sum of what the
sessions have counted (`Summed`).  So the relations between the counters follow from those between
the counts of one session in `Session/Counting.lean`, whatever the order in which the sessions
make their updates.

The counters are numbers here.  `Process.word_eq_value` in `Server/Snapshot.lean` says that in a run
of fewer than `2 ^ 64` steps the 64-bit words of the program hold these numbers.
-/

namespace HttpServer

variable {H : Type}

namespace HttpStatisticsInternal

/-- The value of a counter. -/
def value (st : HttpStatisticsInternal) : Counter → Nat
  | .session => st.sessionCnt.toNat
  | .readTimeout => st.readTimeoutCnt
  | .readSuccess => st.readSuccessCnt
  | .readFail => st.readFailCnt
  | .writeTimeout => st.writeTimeoutCnt
  | .writeSuccess => st.writeSuccessCnt
  | .writeFail => st.writeFailCnt
  | .handleRequest => st.handleRequestCnt
  | .workingHandler => st.workingHandlerCnt

/-- What the 64-bit word of a counter holds: its number modulo `2 ^ 64`. -/
def word (st : HttpStatisticsInternal) (c : Counter) : UInt64 := UInt64.ofNat (st.value c)

/-- `++` on the word is `++` on the number. -/
lemma word_inc (st : HttpStatisticsInternal) {c : Counter} (hc : c ≠ .session) :
    (st.inc c).word c = st.word c + 1 := by
  have hvalue : (st.inc c).value c = st.value c + 1 := by
    cases c <;> first | rfl | contradiction
  rw [word, hvalue, UInt64.ofNat_add]
  rfl

/-- And so is `--`, from zero too. -/
lemma word_dec (st : HttpStatisticsInternal) :
    (st.dec .workingHandler).word .workingHandler = st.word .workingHandler - 1 := by
  show UInt64.ofNat (decrement st.workingHandlerCnt) = UInt64.ofNat st.workingHandlerCnt - 1
  rw [decrement]
  split_ifs with hzero
  · rw [hzero]
    rfl
  · rw [UInt64.ofNat_sub (Nat.one_le_iff_ne_zero.mpr hzero)]
    rfl

end HttpStatisticsInternal

/-- The counters that are only ever incremented. -/
def Counter.Cumulative (c : Counter) : Prop := c ≠ .session ∧ c ≠ .workingHandler

lemma value_update {c : Counter} (hc : c.Cumulative) (st : HttpStatisticsInternal) (a : Output H) :
    (st.update a).value c = st.value c + counted c [a] := by
  obtain ⟨hsession, hworking⟩ := hc
  cases a with
  | inc c' => cases c <;> cases c' <;> first | rfl | contradiction
  | dec c' => cases c <;> cases c' <;> first | rfl | contradiction
  | _ => rfl

/-- A cumulative counter grows by what a step counts. -/
lemma value_updateAll {c : Counter} (hc : c.Cumulative) (o : List (Output H))
    (st : HttpStatisticsInternal) : (st.updateAll o).value c = st.value c + counted c o := by
  induction o generalizing st with
  | nil => rfl
  | cons a o ih =>
      show ((st.update a).updateAll o).value c = _
      rw [ih, value_update hc, Nat.add_assoc, ← counted_append]
      rfl

/-- A step moves `working_handler_cnt_` as the session enters and leaves `handle()`. -/
lemma Session.workingHandlerCnt_step {ctx : Context H} {s s' : Session} {e : Event}
    {o : List (Output H)} (h : Session.Step ctx s e s' o) (st : HttpStatisticsInternal)
    (hle : s.inHandler.toNat ≤ st.workingHandlerCnt) :
    (st.updateAll o).workingHandlerCnt + s.inHandler.toNat =
      st.workingHandlerCnt + s'.inHandler.toNat := by
  cases h with
  | called now handler request hprocessing => rw [inHandler, hprocessing]; rfl
  | handleReturns hhandling =>
      simp only [inHandler, hhandling, decide_true, Bool.toNat_true] at hle ⊢
      show decrement st.workingHandlerCnt + 1 = st.workingHandlerCnt + 0
      rw [decrement, if_neg (by omega)]
      omega
  | requestRead received hidle => rw [inHandler, hidle]; rfl
  | rejected now rsp hprocessing => rw [inHandler, hprocessing]; rfl
  | countHandled hreturned => rw [inHandler, hreturned]; rfl
  | _ => rfl

/-! ## Sums over the sessions -/

namespace Server

variable {srv : Server H}

lemma total_add (srv : Server H) (f g : Session × List (Output H) → Nat) :
    srv.total (fun t => f t + g t) = srv.total f + srv.total g :=
  List.sum_map_add

lemma total_congr {f g : Session × List (Output H) → Nat} (h : ∀ t ∈ srv.sessions, f t = g t) :
    srv.total f = srv.total g :=
  congrArg List.sum (List.map_congr_left h)

lemma total_le {f g : Session × List (Output H) → Nat} (h : ∀ t ∈ srv.sessions, f t ≤ g t) :
    srv.total f ≤ srv.total g :=
  List.sum_le_sum h

/-- The counters are the sums of what the sessions have counted. -/
structure Summed (srv : Server H) : Prop where
  cumulative : ∀ c : Counter, c.Cumulative →
    srv.impl.httpStatistics.value c = srv.total fun t => counted c t.2
  working : srv.impl.httpStatistics.workingHandlerCnt = srv.total fun t => t.1.inHandler.toNat

lemma summed_of_reset (hsessions : srv.sessions = []) (hstats : srv.impl.httpStatistics = {}) :
    srv.Summed := by
  constructor
  · rintro c ⟨hsession, hworking⟩
    rw [total, hsessions, hstats]
    cases c <;> rfl
  · rw [total, hsessions, hstats]
    rfl

/-- A step keeps the counters the sums, unless it resets them when there are sessions. -/
lemma Summed.step {boost : Boost} {sId sId' : UInt64} {srv' : Server H} {e : ServerEvent}
    (h : srv.Summed) (hreset : ∀ env, e = .run env → srv.sessions = [])
    (hstep : Step boost sId srv e sId' srv') : srv'.Summed := by
  cases hstep with
  | started env impl serving hvalid hopts hrouter hstats =>
      exact summed_of_reset (hreset env rfl) hstats
  | idle _ impl serving hopts hrouter hstats =>
      constructor
      · intro c hc
        show impl.httpStatistics.value c = srv.total _
        rw [hstats, h.cumulative c hc]
      · show impl.httpStatistics.workingHandlerCnt = srv.total _
        rw [hstats, h.working]
  | accepted impl hopts hrouter hstats =>
      constructor
      · intro c hc
        rw [total_append, ← h.cumulative c hc, hstats]
        obtain ⟨hsession, hworking⟩ := hc
        cases c <;> first | rfl | contradiction
      · rw [total_append, ← h.working, hstats]
        rfl
  | session k e' s s' log o hk hs =>
      obtain ⟨-, hcases⟩ := Session.step_cases hs
      constructor
      · intro c hc
        have htotal := total_afterSession hk s' o fun t => counted c t.2
        simp only [counted_append] at htotal
        show (srv.impl.httpStatistics.updateAll o).value c = _
        rw [value_updateAll hc, h.cumulative c hc]
        omega
      · have htotal := total_afterSession hk s' o fun t => t.1.inHandler.toNat
        have hle := le_total hk fun t => t.1.inHandler.toNat
        rw [← h.working] at htotal hle
        have hworking := Session.workingHandlerCnt_step hcases srv.impl.httpStatistics hle
        show (srv.impl.httpStatistics.updateAll o).workingHandlerCnt = _
        simp only at htotal
        omega

/-! ## The result -/

/-- The relations between the counters of a server and its sessions. -/
structure Accounted (srv : Server H) : Prop where
  reads : srv.impl.httpStatistics.readSuccessCnt =
    srv.impl.httpStatistics.handleRequestCnt + srv.total fun t => t.1.busy.toNat
  working : srv.impl.httpStatistics.workingHandlerCnt = srv.total fun t => t.1.inHandler.toNat
  no_wrap : ∀ t ∈ srv.sessions, t.1.inHandler = true →
    srv.impl.httpStatistics.workingHandlerCnt ≠ 0
  /-- a completed write is counted, or its `onWrite` is queued -/
  writes : srv.impl.httpStatistics.writeSuccessCnt + srv.impl.httpStatistics.writeFailCnt +
      srv.impl.httpStatistics.writeTimeoutCnt + srv.total (fun t => t.1.onWrites.length) =
    srv.total fun t => endedWrites t.2
  writes_le : srv.impl.httpStatistics.writeSuccessCnt + srv.impl.httpStatistics.writeFailCnt +
    srv.impl.httpStatistics.writeTimeoutCnt ≤ srv.impl.httpStatistics.handleRequestCnt
  handled_le : srv.impl.httpStatistics.handleRequestCnt ≤ srv.impl.httpStatistics.readSuccessCnt
  quiescent : (∀ t ∈ srv.sessions, t.1.strand = .idle) →
    srv.impl.httpStatistics.readSuccessCnt = srv.impl.httpStatistics.handleRequestCnt

/-- The three write counters together. -/
lemma Summed.writes (h : srv.Summed) :
    srv.impl.httpStatistics.writeSuccessCnt + srv.impl.httpStatistics.writeFailCnt +
      srv.impl.httpStatistics.writeTimeoutCnt = srv.total fun t => countedWrites t.2 := by
  have hsuccess := h.cumulative .writeSuccess ⟨nofun, nofun⟩
  have hfail := h.cumulative .writeFail ⟨nofun, nofun⟩
  have htimeout := h.cumulative .writeTimeout ⟨nofun, nofun⟩
  simp only [HttpStatisticsInternal.value] at hsuccess hfail htimeout
  unfold countedWrites
  rw [total_add, total_add, hsuccess, hfail, htimeout]

/-- A read that is counted is counted as handled or keeps its session busy. -/
lemma Summed.reads (h : srv.Summed) (htallied : ∀ t ∈ srv.sessions, t.1.Tallied t.2) :
    srv.impl.httpStatistics.readSuccessCnt =
      srv.impl.httpStatistics.handleRequestCnt + srv.total fun t => t.1.busy.toNat := by
  have hread : srv.impl.httpStatistics.readSuccessCnt =
      srv.total fun t => counted .readSuccess t.2 :=
    h.cumulative .readSuccess ⟨nofun, nofun⟩
  have hhandled : srv.impl.httpStatistics.handleRequestCnt =
      srv.total fun t => counted .handleRequest t.2 :=
    h.cumulative .handleRequest ⟨nofun, nofun⟩
  rw [hread, hhandled, ← total_add]
  exact total_congr fun t ht => (htallied t ht).reads

/-- **From one session to the server.** -/
lemma Summed.accounted {boost : Boost} (h : srv.Summed) (hruns : srv.SessionsRun boost) :
    srv.Accounted := by
  have htallied : ∀ t ∈ srv.sessions, t.1.Tallied t.2 := by
    intro t ht
    obtain ⟨es, hes⟩ := hruns t ht
    exact Session.run_tallied es t (LTS.run_of_restrict es t hes)
  have hhandled : srv.impl.httpStatistics.handleRequestCnt =
      srv.total fun t => counted .handleRequest t.2 :=
    h.cumulative .handleRequest ⟨nofun, nofun⟩
  have hreads := h.reads htallied
  refine ⟨hreads, h.working, ?_, ?_, ?_, by omega, ?_⟩
  · intro t ht hin hzero
    obtain ⟨k, hk⟩ := List.mem_iff_getElem?.mp ht
    have hle := le_total hk fun t => t.1.inHandler.toNat
    rw [← h.working, hzero] at hle
    simp [hin] at hle
  · rw [h.writes, ← total_add]
    exact total_congr fun t ht => (htallied t ht).ends
  · rw [h.writes, hhandled]
    refine total_le ?_
    intro t ht
    obtain ⟨es, hes⟩ := hruns t ht
    exact Session.countedWrites_le hes
  · intro hidle
    have hnone : (srv.total fun t => t.1.busy.toNat) = srv.total fun _ => 0 :=
      total_congr fun t ht => by rw [Session.busy, hidle t ht]; rfl
    rw [hreads, hnone]
    simp [total]

end Server

namespace Process

/-- The steps of single use in which the server at an index is started only before it has
constructed a session: its first `run()` that serves anyone lasts. -/
def firstRun (i : Nat) (p : Process H) (e : ProcessEvent) : Bool :=
  p.singleUse e &&
    (e.server ≠ i ||
      match e.event, p.servers[i]? with
      | .run _, some srv => srv.sessions.isEmpty
      | _, _ => true)

/-- **The statistics add up** in every state reached while the first `run()` of a server lasts. -/
theorem accounted_of_firstRun (boost : Boost) (servers : List (HttpServerOptions × HttpRouter H))
    (i : Nat) (es : List ProcessEvent) (p : Process H)
    (h : ((lts boost).restrict fun p e => firstRun i p e = true).run (start servers) es = some p)
    (srv : Server H) (hsrv : p.servers[i]? = some srv) : srv.Accounted := by
  have hruns := run_sessions (fun p e hfirst => (Bool.and_eq_true_iff.mp hfirst).1) h hsrv
  refine (run_server (P := Server.Summed) ?_ ?_ es p h srv hsrv).accounted hruns
  · intro opts router
    exact Server.summed_of_reset rfl rfl
  · rintro p ⟨j, event⟩ srv sId' srv' hfirst hi hsrv hsummed hstep
    obtain rfl : j = i := hi
    refine hsummed.step ?_ hstep
    rintro env rfl
    simpa [firstRun, hsrv] using (Bool.and_eq_true_iff.mp hfirst).2

theorem accounted_of_firstRun_hello :
    ∃ p srv, ((lts plainBoost).restrict fun p e => firstRun 0 p e = true).run
        (start helloServers) keptWriter = some p ∧ p.servers[0]? = some srv ∧ srv.Accounted :=
  ⟨_, _, rfl, rfl, accounted_of_firstRun plainBoost helloServers 0 keptWriter _ rfl _ rfl⟩

end Process

end HttpServer
