import HttpServerCpp.Session.Machine

/-!
# Starting and stopping a server

`HttpServerImpl` (`src/http_server_impl.cpp`).  `run()` is a list of statements on the members of
the server and on the process-wide session id generator; each statement succeeds or throws,
depending on what the operating system answers (`Env`).  The list ends where `run()` enters
`io_context_.run()` and blocks.

* `runStmts` executes statements one after the other and keeps what was done before a throw.
* `stop` is the whole call; `Server/StopRace.lean` takes it apart.
* An `async_accept` is pending until a connection or an error completes it, and then queued until
  the `io_context` runs its `onAccept`.
-/

namespace HttpServer

/-! ## Counters -/

/-- `HttpStatisticsInternal`.  The 64-bit counters are incremented by one at a time and are
numbers here; `workingHandlerCnt` is also decremented, with the wrap of its type.  `word_inc`,
`word_dec` and `Process.word_eq_value` relate the numbers to the words. -/
structure HttpStatisticsInternal where
  sessionCnt : UInt32 := 0
  readTimeoutCnt : Nat := 0
  readSuccessCnt : Nat := 0
  readFailCnt : Nat := 0
  writeTimeoutCnt : Nat := 0
  writeSuccessCnt : Nat := 0
  writeFailCnt : Nat := 0
  handleRequestCnt : Nat := 0
  workingHandlerCnt : Nat := 0
deriving DecidableEq

/-- `--n` on a `std::atomic<std::uint64_t>`. -/
def decrement (n : Nat) : Nat := if n = 0 then 2 ^ 64 - 1 else n - 1

namespace HttpStatisticsInternal

/-- `++` on a counter. -/
def inc (st : HttpStatisticsInternal) : Counter → HttpStatisticsInternal
  | .session => { st with sessionCnt := st.sessionCnt + 1 }
  | .readTimeout => { st with readTimeoutCnt := st.readTimeoutCnt + 1 }
  | .readSuccess => { st with readSuccessCnt := st.readSuccessCnt + 1 }
  | .readFail => { st with readFailCnt := st.readFailCnt + 1 }
  | .writeTimeout => { st with writeTimeoutCnt := st.writeTimeoutCnt + 1 }
  | .writeSuccess => { st with writeSuccessCnt := st.writeSuccessCnt + 1 }
  | .writeFail => { st with writeFailCnt := st.writeFailCnt + 1 }
  | .handleRequest => { st with handleRequestCnt := st.handleRequestCnt + 1 }
  | .workingHandler => { st with workingHandlerCnt := st.workingHandlerCnt + 1 }

/-- `--` on a counter; the program applies it to two of them. -/
def dec (st : HttpStatisticsInternal) : Counter → HttpStatisticsInternal
  | .session => { st with sessionCnt := st.sessionCnt - 1 }
  | .workingHandler => { st with workingHandlerCnt := decrement st.workingHandlerCnt }
  | _ => st

variable {H : Type}

/-- The counter update of an output. -/
def update (st : HttpStatisticsInternal) : Output H → HttpStatisticsInternal
  | .inc c => st.inc c
  | .dec c => st.dec c
  | _ => st

/-- The counter updates of a step. -/
def updateAll (st : HttpStatisticsInternal) (o : List (Output H)) : HttpStatisticsInternal :=
  o.foldl update st

end HttpStatisticsInternal

/-! ## The members -/

/-- How an `async_accept` ends. -/
inductive AcceptResult where
  | connection | operationAborted | badDescriptor | otherError
deriving DecidableEq

/-- `HttpServerImpl`: its members, and the accepts that are pending or queued.  A thread of
`io_thread_pool_` is represented by whether it is joinable. -/
structure HttpServerImpl (H : Type) where
  opts : HttpServerOptions
  router : HttpRouter H
  httpStatistics : HttpStatisticsInternal
  ioStopped : Bool
  acceptorOpen : Bool
  pendingAccepts : Nat
  queuedAccepts : List AcceptResult
  ioThreadPool : List Bool

/-- What `run()` works on: the static `HttpSession::s_id` and the server. -/
structure Host (H : Type) where
  sId : UInt64
  impl : HttpServerImpl H

/-- The error message of each call of `run()` that can fail; `none` is success. -/
structure Env where
  makeAddress : Option String := none
  openAcceptor : Option String := none
  reuseAddress : Option String := none
  linger : Option String := none
  bind : Option String := none
  listen : Option String := none
deriving DecidableEq

variable {H : Type}

namespace HttpServerImpl

/-- `HttpServerImpl::HttpServerImpl`. -/
def new (opts : HttpServerOptions) (router : HttpRouter H) : HttpServerImpl H where
  opts := opts
  router := router
  httpStatistics := {}
  ioStopped := true
  acceptorOpen := false
  pendingAccepts := 0
  queuedAccepts := []
  ioThreadPool := []

/-- `HttpServerImpl::doAccept`; on a closed acceptor the operation fails at once. -/
def doAccept (impl : HttpServerImpl H) : HttpServerImpl H :=
  if impl.acceptorOpen then { impl with pendingAccepts := impl.pendingAccepts + 1 }
  else { impl with queuedAccepts := impl.queuedAccepts ++ [.badDescriptor] }

/-- `acceptor_.close()`: the pending accepts are aborted. -/
def closeAcceptor (impl : HttpServerImpl H) : HttpServerImpl H :=
  { impl with
    acceptorOpen := false
    pendingAccepts := 0
    queuedAccepts := impl.queuedAccepts ++ List.replicate impl.pendingAccepts .operationAborted }

/-- `HttpServerImpl::stop`. -/
def stop (impl : HttpServerImpl H) : HttpServerImpl H :=
  let impl :=
    if !impl.ioStopped then { impl with ioStopped := true, ioThreadPool := [] } else impl
  if impl.acceptorOpen then impl.closeAcceptor else impl

end HttpServerImpl

/-! ## The statements of `run()` -/

/-- The statements of `run()` up to `io_context_.run()`. -/
inductive RunStmt where
  | checkThreadNum | checkMaxRequestSize | checkAddr
  | resetSessionId | resetAllHttpStatistics
  | restart | makeAddress | openAcceptor | reuseAddress | linger | bind | listen
  | doAccept | emplaceBack
deriving DecidableEq

/-- An operation of the system that fails with a message or has the given effect. -/
def failing {α : Type} (outcome : Option String) (done : α) : Except String α :=
  match outcome with
  | some message => .error message
  | none => .ok done

namespace RunStmt

/-- One statement of `run()`. -/
def exec (env : Env) (host : Host H) : RunStmt → Except String (Host H)
  | checkThreadNum =>
      if host.impl.opts.threadNum = 0 then .error "thread count should > 0" else .ok host
  | checkMaxRequestSize =>
      if host.impl.opts.maxRequestSize = 0 then .error "max request should > 0" else .ok host
  | checkAddr => if host.impl.opts.addr = "" then .error "addr is empty" else .ok host
  | resetSessionId => .ok { host with sId := 0 }
  | resetAllHttpStatistics => .ok { host with impl := { host.impl with httpStatistics := {} } }
  | restart => .ok { host with impl := { host.impl with ioStopped := false } }
  | makeAddress => failing env.makeAddress host
  | openAcceptor =>
      if host.impl.acceptorOpen then .error "Already open"
      else failing env.openAcceptor { host with impl := { host.impl with acceptorOpen := true } }
  | reuseAddress => onOpen env.reuseAddress
  | linger => onOpen env.linger
  | bind => onOpen env.bind
  | listen => onOpen env.listen
  | doAccept => .ok { host with impl := host.impl.doAccept }
  | emplaceBack =>
      .ok { host with impl := { host.impl with ioThreadPool := host.impl.ioThreadPool ++ [true] } }
where
  /-- An operation on the acceptor's socket. -/
  onOpen (outcome : Option String) : Except String (Host H) :=
    if host.impl.acceptorOpen then failing outcome host else .error "Bad file descriptor"

end RunStmt

/-- The option checks. -/
def checks : List RunStmt := [.checkThreadNum, .checkMaxRequestSize, .checkAddr]

/-- The statements from `restart()` on. -/
def restarted (opts : HttpServerOptions) : List RunStmt :=
  [.makeAddress, .openAcceptor, .reuseAddress, .linger, .bind, .listen, .doAccept] ++
    List.replicate (opts.threadNum.toNat - 1) .emplaceBack

/-- The body of `run()`. -/
def runProgram (opts : HttpServerOptions) : List RunStmt :=
  checks ++ .resetSessionId :: .resetAllHttpStatistics :: .restart :: restarted opts

/-- Execute statements until one throws; what was done before it stays. -/
def runStmts (env : Env) : List RunStmt → Host H → Host H × Option String
  | [], host => (host, none)
  | c :: cs, host =>
      match c.exec env host with
      | .error message => (host, some message)
      | .ok host' => runStmts env cs host'

/-- `HttpServerImpl::run` up to `io_context_.run()`: the state it leaves, and the message of the
exception if it throws. -/
def HttpServerImpl.run (env : Env) (host : Host H) : Host H × Option String :=
  runStmts env (runProgram host.impl.opts) host

end HttpServer
