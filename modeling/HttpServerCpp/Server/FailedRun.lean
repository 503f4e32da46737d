import HttpServerCpp.Server.Impl
import HttpServerCpp.Session.InFlight

/-!
# What a failed `run()` leaves behind

`run()` undoes nothing when it throws.  The outcomes of a call on a stopped server are:

* an option check fails: nothing has been touched (`run_of_invalid`);
* the address does not parse or the acceptor does not open: the counters and the id generator are
  reset and the `io_context` is restarted (`run_of_not_opens`);
* a later step fails: the acceptor is open as well (`run_of_not_serves`), and from then on every
  call fails, because an open acceptor cannot be opened (`run_of_open`);
* every step succeeds (`run_of_serves`).

`run_undone_iff` puts the two promises about failed calls beside these outcomes.
-/

namespace HttpServer

variable {H : Type} {env : Env} {host : Host H}

/-- The option checks succeed. -/
def HttpServerOptions.Valid (opts : HttpServerOptions) : Prop :=
  opts.threadNum ≠ 0 ∧ opts.maxRequestSize ≠ 0 ∧ opts.addr ≠ ""

instance (opts : HttpServerOptions) : Decidable opts.Valid :=
  inferInstanceAs (Decidable (_ ∧ _ ∧ _))

/-- The address parses and a closed acceptor opens. -/
def Env.Opens (env : Env) : Prop := env.makeAddress = none ∧ env.openAcceptor = none

/-- The address is usable. -/
def Env.Serves (env : Env) : Prop :=
  env.Opens ∧ env.reuseAddress = none ∧ env.linger = none ∧ env.bind = none ∧ env.listen = none

instance (env : Env) : Decidable env.Opens := inferInstanceAs (Decidable (_ ∧ _))

instance (env : Env) : Decidable env.Serves := inferInstanceAs (Decidable (_ ∧ _))

namespace Host

/-- Counters and id generator reset, `io_context` restarted. -/
def restarted (host : Host H) : Host H :=
  { sId := 0, impl := { host.impl with httpStatistics := {}, ioStopped := false } }

/-- And the acceptor open. -/
def opened (host : Host H) : Host H :=
  { host.restarted with impl := { host.restarted.impl with acceptorOpen := true } }

/-- And the accept armed and the worker threads started. -/
def serving (host : Host H) : Host H :=
  { host.opened with
    impl := { host.opened.impl with
      pendingAccepts := host.impl.pendingAccepts + 1
      ioThreadPool := host.impl.ioThreadPool ++
        List.replicate (host.impl.opts.threadNum.toNat - 1) true } }

end Host

/-! ## The outcomes of one call -/

lemma run_of_invalid (h : ¬ host.impl.opts.Valid) (env : Env) :
    ∃ message, HttpServerImpl.run env host = (host, some message) := by
  simp only [HttpServerImpl.run, runProgram, checks, List.cons_append, List.nil_append, runStmts,
    RunStmt.exec]
  by_cases hthread : host.impl.opts.threadNum = 0
  · exact ⟨"thread count should > 0", by simp only [if_pos hthread]⟩
  · by_cases hsize : host.impl.opts.maxRequestSize = 0
    · exact ⟨"max request should > 0", by simp only [if_neg hthread, if_pos hsize]⟩
    · have haddr : host.impl.opts.addr = "" := by
        by_contra haddr
        exact h ⟨hthread, hsize, haddr⟩
      exact ⟨"addr is empty", by simp only [if_neg hthread, if_neg hsize, if_pos haddr]⟩

/-- The checks passed and the resets done. -/
lemma run_of_valid (h : host.impl.opts.Valid) (env : Env) :
    HttpServerImpl.run env host = runStmts env (restarted host.impl.opts) host.restarted := by
  obtain ⟨hthread, hsize, haddr⟩ := h
  simp only [HttpServerImpl.run, runProgram, checks, List.cons_append, List.nil_append, runStmts,
    RunStmt.exec, if_neg hthread, if_neg hsize, if_neg haddr]
  rfl

lemma runStmts_emplaceBack (env : Env) : ∀ (n : Nat) (host : Host H),
    runStmts env (List.replicate n .emplaceBack) host =
      ({ host with impl := { host.impl with
          ioThreadPool := host.impl.ioThreadPool ++ List.replicate n true } }, none) := by
  intro n
  induction n with
  | zero =>
      intro host
      simp [runStmts]
  | succ n ih =>
      intro host
      rw [List.replicate_succ]
      simp only [runStmts, RunStmt.exec]
      rw [ih]
      simp [List.replicate_succ]

lemma run_of_open (h : host.impl.opts.Valid) (hopen : host.impl.acceptorOpen = true) (env : Env) :
    ∃ message, HttpServerImpl.run env host = (host.restarted, some message) := by
  rw [run_of_valid h]
  have hopen' : host.restarted.impl.acceptorOpen = true := hopen
  cases haddress : env.makeAddress with
  | some message => exact ⟨message, by simp [restarted, runStmts, RunStmt.exec, failing, haddress]⟩
  | none =>
      exact ⟨"Already open", by
        simp [restarted, runStmts, RunStmt.exec, failing, haddress, hopen']⟩

lemma run_of_not_opens (h : host.impl.opts.Valid) (henv : ¬ env.Opens) :
    ∃ message, HttpServerImpl.run env host = (host.restarted, some message) := by
  by_cases hopen : host.impl.acceptorOpen = true
  · exact run_of_open h hopen env
  · have hclosed : host.restarted.impl.acceptorOpen = false := Bool.eq_false_iff.mpr hopen
    rw [run_of_valid h]
    cases haddress : env.makeAddress with
    | some message =>
        exact ⟨message, by simp [restarted, runStmts, RunStmt.exec, failing, haddress]⟩
    | none =>
        cases hacceptor : env.openAcceptor with
        | some message =>
            exact ⟨message, by
              simp [restarted, runStmts, RunStmt.exec, failing, haddress, hclosed, hacceptor]⟩
        | none => exact absurd ⟨haddress, hacceptor⟩ henv

/-- The acceptor is open; what is left are four calls on its socket, `doAccept` and the threads. -/
lemma run_of_opens (h : host.impl.opts.Valid) (hclosed : host.impl.acceptorOpen = false)
    (henv : env.Opens) :
    HttpServerImpl.run env host =
      runStmts env ([.reuseAddress, .linger, .bind, .listen, .doAccept] ++
        List.replicate (host.impl.opts.threadNum.toNat - 1) .emplaceBack) host.opened := by
  have hclosed' : host.restarted.impl.acceptorOpen = false := hclosed
  rw [run_of_valid h]
  simp only [restarted, List.cons_append, List.nil_append, runStmts, RunStmt.exec, failing, henv.1,
    henv.2, hclosed', Bool.false_eq_true, if_false]
  rfl

lemma run_of_not_serves (h : host.impl.opts.Valid) (hclosed : host.impl.acceptorOpen = false)
    (hopens : env.Opens) (henv : ¬ env.Serves) :
    ∃ message, HttpServerImpl.run env host = (host.opened, some message) := by
  have hopen : host.opened.impl.acceptorOpen = true := rfl
  rw [run_of_opens h hclosed hopens]
  simp only [List.cons_append, List.nil_append, runStmts, RunStmt.exec, RunStmt.exec.onOpen, hopen,
    if_true]
  cases hreuse : env.reuseAddress with
  | some message => exact ⟨message, rfl⟩
  | none =>
      cases hlinger : env.linger with
      | some message => exact ⟨message, rfl⟩
      | none =>
          cases hbind : env.bind with
          | some message => exact ⟨message, rfl⟩
          | none =>
              cases hlisten : env.listen with
              | some message => exact ⟨message, rfl⟩
              | none => exact absurd ⟨hopens, hreuse, hlinger, hbind, hlisten⟩ henv

lemma run_of_serves (h : host.impl.opts.Valid) (hclosed : host.impl.acceptorOpen = false)
    (henv : env.Serves) : HttpServerImpl.run env host = (host.serving, none) := by
  have hopen : host.opened.impl.acceptorOpen = true := rfl
  obtain ⟨hopens, hreuse, hlinger, hbind, hlisten⟩ := henv
  rw [run_of_opens h hclosed hopens]
  simp only [List.cons_append, List.nil_append, runStmts, RunStmt.exec, RunStmt.exec.onOpen, hopen,
    if_true, failing, hreuse, hlinger, hbind, hlisten, HttpServerImpl.doAccept]
  rw [runStmts_emplaceBack]
  rfl

/-- Every call, whatever its outcome: it leaves the options and the handlers alone, and it does
nothing or resets the counters and the id generator. -/
lemma run_resets (env : Env) (host : Host H) :
    (HttpServerImpl.run env host).1.impl.opts = host.impl.opts ∧
    (HttpServerImpl.run env host).1.impl.router = host.impl.router ∧
    if host.impl.opts.Valid then (HttpServerImpl.run env host).1.sId = 0 ∧
      (HttpServerImpl.run env host).1.impl.httpStatistics = {}
    else (HttpServerImpl.run env host).1 = host := by
  by_cases hvalid : host.impl.opts.Valid
  · rw [if_pos hvalid]
    by_cases hopen : host.impl.acceptorOpen = true
    · obtain ⟨message, hrun⟩ := run_of_open hvalid hopen env
      rw [hrun]
      exact ⟨rfl, rfl, rfl, rfl⟩
    · have hclosed : host.impl.acceptorOpen = false := Bool.eq_false_iff.mpr hopen
      by_cases hopens : env.Opens
      · by_cases hserves : env.Serves
        · rw [run_of_serves hvalid hclosed hserves]
          exact ⟨rfl, rfl, rfl, rfl⟩
        · obtain ⟨message, hrun⟩ := run_of_not_serves hvalid hclosed hopens hserves
          rw [hrun]
          exact ⟨rfl, rfl, rfl, rfl⟩
      · obtain ⟨message, hrun⟩ := run_of_not_opens hvalid hopens
        rw [hrun]
        exact ⟨rfl, rfl, rfl, rfl⟩
  · obtain ⟨message, hrun⟩ := run_of_invalid hvalid env
    rw [hrun, if_neg hvalid]
    exact ⟨rfl, rfl, rfl⟩

/-! ## The promises -/

/-- If the call throws, it has left everything as it was. -/
def Undone (env : Env) (host : Host H) : Prop :=
  ∀ message, (HttpServerImpl.run env host).2 = some message →
    (HttpServerImpl.run env host).1.impl.acceptorOpen = false ∧
    (HttpServerImpl.run env host).1.impl.ioStopped = true ∧
    (HttpServerImpl.run env host).1.impl.httpStatistics = host.impl.httpStatistics ∧
    (HttpServerImpl.run env host).1.sId = host.sId

/-- A call that throws undoes what it did only if it did nothing. -/
lemma undone_iff (hclosed : host.impl.acceptorOpen = false)
    (hstopped : host.impl.ioStopped = true) :
    Undone env host ↔ ¬ host.impl.opts.Valid ∨ env.Serves := by
  constructor
  · intro h
    by_contra hno
    push Not at hno
    obtain ⟨hvalid, hserves⟩ := hno
    by_cases hopens : env.Opens
    · obtain ⟨message, hrun⟩ := run_of_not_serves hvalid hclosed hopens hserves
      have hdone := (h message (by rw [hrun])).2.1
      rw [hrun] at hdone
      cases hdone
    · obtain ⟨message, hrun⟩ := run_of_not_opens hvalid hopens
      have hdone := (h message (by rw [hrun])).2.1
      rw [hrun] at hdone
      cases hdone
  · rintro (hinvalid | hserves) message hthrow
    · obtain ⟨message', hrun⟩ := run_of_invalid hinvalid env
      rw [hrun]
      exact ⟨hclosed, hstopped, rfl, rfl⟩
    · by_cases hvalid : host.impl.opts.Valid
      · rw [run_of_serves hvalid hclosed hserves] at hthrow
        cases hthrow
      · obtain ⟨message', hrun⟩ := run_of_invalid hvalid env
        rw [hrun]
        exact ⟨hclosed, hstopped, rfl, rfl⟩

/-- A sequence of calls, whatever their outcome. -/
def runAll (envs : List Env) (host : Host H) : Host H :=
  envs.foldl (fun host env => (HttpServerImpl.run env host).1) host

/-- Every call of the sequence throws. -/
def AllThrow : List Env → Host H → Prop
  | [], _ => True
  | env :: envs, host =>
      (HttpServerImpl.run env host).2 ≠ none ∧ AllThrow envs (HttpServerImpl.run env host).1

/-- Calls with options that fail the checks change nothing. -/
lemma runAll_of_invalid (h : ¬ host.impl.opts.Valid) : ∀ envs, runAll envs host = host := by
  intro envs
  induction envs with
  | nil => rfl
  | cons env envs ih =>
      obtain ⟨message, hrun⟩ := run_of_invalid h env
      rw [runAll, List.foldl_cons, hrun]
      exact ih

/-- An open acceptor makes every later call fail. -/
lemma runAll_of_open : ∀ (envs : List Env) (host : Host H), host.impl.opts.Valid →
    host.impl.acceptorOpen = true → (runAll envs host).impl.acceptorOpen = true ∧
      (runAll envs host).impl.opts = host.impl.opts := by
  intro envs
  induction envs with
  | nil =>
      intro host _ hopen
      exact ⟨hopen, rfl⟩
  | cons env envs ih =>
      intro host h hopen
      obtain ⟨message, hrun⟩ := run_of_open h hopen env
      rw [runAll, List.foldl_cons, hrun]
      exact ih host.restarted h hopen

/-- Calls that throw without having opened the acceptor leave a server that serves as before. -/
lemma run_runAll_of_not_opens (last : Env) : ∀ (envs : List Env) (host : Host H),
    host.impl.opts.Valid → (∀ env ∈ envs, ¬ env.Opens) →
      HttpServerImpl.run last (runAll envs host) = HttpServerImpl.run last host := by
  intro envs
  induction envs with
  | nil =>
      intro host _ _
      rfl
  | cons env envs ih =>
      intro host h hno
      have h' : host.restarted.impl.opts.Valid := h
      obtain ⟨message, hrun⟩ := run_of_not_opens h (hno env List.mem_cons_self)
      have hrest := ih host.restarted h'
        (fun env' henv' => hno env' (List.mem_cons_of_mem _ henv'))
      rw [runAll, List.foldl_cons, hrun]
      refine hrest.trans ?_
      rw [run_of_valid h', run_of_valid h]
      rfl

/-- Calls that throw, one of them with the acceptor already open: a later call throws as well. -/
lemma run_runAll_of_opens (last : Env) : ∀ (envs : List Env) (host : Host H),
    host.impl.opts.Valid → host.impl.acceptorOpen = false → AllThrow envs host →
      (∃ env ∈ envs, env.Opens) → (HttpServerImpl.run last (runAll envs host)).2 ≠ none := by
  intro envs
  induction envs with
  | nil =>
      rintro host - - - ⟨env, hmem, -⟩
      cases hmem
  | cons env envs ih =>
      intro host h hclosed hthrow hsome
      by_cases hopens : env.Opens
      · have hserves : ¬ env.Serves := fun hserves =>
          hthrow.1 (by rw [run_of_serves h hclosed hserves])
        obtain ⟨message, hrun⟩ := run_of_not_serves h hclosed hopens hserves
        obtain ⟨hopen, hopts⟩ := runAll_of_open envs host.opened h rfl
        have hvalid : (runAll envs host.opened).impl.opts.Valid := by rw [hopts]; exact h
        obtain ⟨message', hlast⟩ := run_of_open hvalid hopen last
        rw [runAll, List.foldl_cons, hrun]
        show (HttpServerImpl.run last (runAll envs host.opened)).2 ≠ none
        rw [hlast]
        simp
      · obtain ⟨message, hrun⟩ := run_of_not_opens h hopens
        have hrest : ∃ env ∈ envs, env.Opens := by
          obtain ⟨env', henv', hopens'⟩ := hsome
          rcases List.mem_cons.mp henv' with rfl | hmem
          · exact absurd hopens' hopens
          · exact ⟨env', hmem, hopens'⟩
        have hthrow' := hthrow.2
        rw [hrun] at hthrow'
        rw [runAll, List.foldl_cons, hrun]
        exact ih host.restarted h hclosed hthrow' hrest

/-- **What failed calls leave behind.**  A call on a stopped server undoes itself exactly when an
option check fails or it succeeds; and after a sequence of failed calls the server is started as
if they had not been made exactly when an option check fails or none of them opened the
acceptor. -/
theorem run_undone_iff (host : Host H) (hclosed : host.impl.acceptorOpen = false)
    (hstopped : host.impl.ioStopped = true) :
    (∀ env, Undone env host ↔ ¬ host.impl.opts.Valid ∨ env.Serves) ∧
    ∀ envs last, AllThrow envs host → last.Serves →
      (HttpServerImpl.run last (runAll envs host) = HttpServerImpl.run last host ↔
        ¬ host.impl.opts.Valid ∨ ∀ env ∈ envs, ¬ env.Opens) := by
  refine ⟨fun env => undone_iff hclosed hstopped, fun envs last hthrow hlast => ?_⟩
  constructor
  · intro heq
    by_contra hno
    push Not at hno
    obtain ⟨hvalid, hsome⟩ := hno
    apply run_runAll_of_opens last envs host hvalid hclosed hthrow hsome
    rw [heq, run_of_serves hvalid hclosed hlast]
  · rintro (hinvalid | hnone)
    · rw [runAll_of_invalid hinvalid]
    · by_cases hvalid : host.impl.opts.Valid
      · exact run_runAll_of_not_opens last envs host hvalid hnone
      · rw [runAll_of_invalid hvalid]

/-- A new server whose address does not parse at first. -/
theorem run_undone_iff_new :
    HttpServerImpl.run {} (runAll [{ makeAddress := some "Invalid argument" }]
        (⟨0, .new {} helloContext.router⟩ : Host Unit)) =
      HttpServerImpl.run {} ⟨0, .new {} helloContext.router⟩ :=
  ((run_undone_iff (⟨0, .new {} helloContext.router⟩ : Host Unit) rfl rfl).2
    [{ makeAddress := some "Invalid argument" }] {} ⟨by decide, trivial⟩ (by decide)).mpr
    (.inr (by decide))

/-- The port is in use: `run()` throws with the acceptor open and the `io_context` restarted, and
once the port is free the next `run()` throws as well. -/
theorem bind_failure_sticks :
    (HttpServerImpl.run { bind := some "Address already in use" }
      (⟨7, .new {} helloContext.router⟩ : Host Unit)).2 = some "Address already in use" ∧
    ¬ Undone { bind := some "Address already in use" }
      (⟨7, .new {} helloContext.router⟩ : Host Unit) ∧
    (HttpServerImpl.run {} (runAll [{ bind := some "Address already in use" }]
      (⟨7, .new {} helloContext.router⟩ : Host Unit))).2 = some "Already open" :=
  ⟨rfl, fun h => absurd (h _ rfl).1 (by decide), rfl⟩

end HttpServer
