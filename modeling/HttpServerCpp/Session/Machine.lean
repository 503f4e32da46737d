import HttpServerCpp.Core.Transition
import HttpServerCpp.Router.HttpRouter
import HttpServerCpp.Message.WriteResponse

/-!
# The session machine

`HttpSession` (`src/http_session.cpp`) as a transition system.  A step is what the program does
in one go as far as anyone else can tell: it updates at most one of the shared counters, and the
completion handlers of a session run one at a time on its strand, never inside the call that
starts the operation.

* `Strand` is what the strand is in the middle of between two steps: nothing, a request that was
  read and counted but not processed, a `handle()` call, or the counter update after it.
* An `async_read` is outstanding until its `onRead` starts.  An `async_write` first completes and
  is then queued until the strand is free for its `onWrite`.
* `Event.send` is a call of `HttpResponseWriter::send` on any copy of the writer that the handler
  of request number `k` received.  It is enabled at every moment after that handler was called.

Every step also says what it did (`Output`); the logged system `Session.lts` accumulates these.
-/

namespace HttpServer

/-! ## Processing a request -/

/-- What a session sees of the server that owns it. -/
structure Context (H : Type) where
  boost : Boost
  opts : HttpServerOptions
  router : HttpRouter H

/-- The two ways out of `processRequest`: a response of the session's own, or a handler call. -/
inductive Dispatch (H : Type) where
  | reject (rsp : HttpResponse)
  | handle (handler : H) (request : HttpRequest)

/-- The target handed to the parser: a GET target has every `|` replaced by `%7C`. -/
def originTarget (request : RequestMessage) : String :=
  if request.method = .get ∧ '|' ∈ request.target.toList then
    String.ofList (request.target.toList.flatMap fun c => if c = '|' then ['%', '7', 'C'] else [c])
  else request.target

/-- `static_cast<MethodType>(verb)`, for a verb that passed the method check. -/
def Verb.toMethodType : Verb → MethodType
  | .unknown | .later _ => .Unknown
  | .delete => .Delete
  | .get => .GET
  | .head => .HEAD
  | .post => .POST
  | .put => .PUT

/-- Copy key and value pairs into a `std::map`, one assignment each. -/
def assignAll (entries : List (String × String)) : SortedMap String String :=
  entries.foldl (fun m entry => m.assign entry.1 entry.2) .empty

/-- The map holds, for each key, the value of its last pair. -/
lemma mem_assignAll {entries : List (String × String)} {entry : String × String} :
    entry ∈ (assignAll entries).entries ↔ Survives entries entry :=
  mem_foldl_assign_empty

variable {H : Type}

/-- `HttpSession::processRequest` up to the call it decides on. -/
def Context.dispatch (ctx : Context H) (request : RequestMessage) (sessionId requestId : UInt64)
    (now : Nat) : Dispatch H :=
  match ctx.boost.parseOriginForm (originTarget request) with
  | none => .reject (.new .Bad_Request "url invalid" "text/plain")
  | some url =>
      match ctx.router.searchSegments url.segments with
      | none => .reject (.new .Bad_Request "current url not support" "text/plain")
      | some handler =>
          if request.method.toNat > Verb.put.toNat then
            .reject (.new .Bad_Request "current method not support" "text/plain")
          else
            .handle handler
              { method := request.method.toMethodType
                sessionId := sessionId
                requestId := requestId
                body := request.body
                segments := url.segments
                headers := assignAll request.fields.lines
                params := assignAll
                  (if ctx.opts.autoDecodeUrlParameters then url.params else url.encodedParams)
                requestStartTime := now }

/-! ## States, events, outputs -/

/-- How an `async_read` ends. -/
inductive ReadResult where
  | endOfStream | timeout | error
  | message (received : RequestMessage)

/-- How an `async_write` ends. -/
inductive WriteResult where
  | ok | timeout | error
deriving DecidableEq

/-- What the strand is in the middle of. -/
inductive Strand where
  | idle | processing | handling | returned
deriving DecidableEq

/-- The counters of `HttpStatisticsInternal`. -/
inductive Counter where
  | session | readTimeout | readSuccess | readFail | writeTimeout | writeSuccess | writeFail
  | handleRequest | workingHandler
deriving DecidableEq

/-- An outstanding `async_write`: the `keep_alive` bound into its `onWrite`, and the content of
`response_` when it began. -/
structure PendingWrite where
  keepAlive : Bool
  message : ResponseMessage

/-- `HttpSession`.  The last four fields describe its surroundings: how many requests were read,
the numbers of the requests whose handlers received a writer, the numbers of the writers used by
the `send` calls so far, and whether the object still exists. -/
structure Session where
  id : UInt64
  currentRequestId : UInt64
  request : RequestMessage
  response : ResponseMessage
  expiry : Option UInt64
  isOpen : Bool
  strand : Strand
  reads : Nat
  writes : List PendingWrite
  onWrites : List (Bool × WriteResult)
  readCount : Nat
  writers : List Nat
  sent : List Nat
  alive : Bool

inductive Event where
  | onRead (r : ReadResult)
  | processRequest (now : Nat)
  | handleReturns
  | countHandled
  | send (k : Nat) (rsp : HttpResponse)
  | writeDone (i : Nat) (r : WriteResult)
  | onWrite
  | destroy

/-- What a step did. -/
inductive Output (H : Type) where
  | inc (c : Counter)
  | dec (c : Counter)
  | readStarted (requestId : UInt64)
  | requestRead (received : RequestMessage)
  | readEnded
  | dispatched (d : Dispatch H)
  | writeStarted (k : Nat) (rsp : HttpResponse) (message : ResponseMessage)
  | writeEnded (keepAlive : Bool) (r : WriteResult)

namespace Session

/-! ## The member functions -/

/-- `HttpSession::HttpSession`. -/
def new (id : UInt64) : Session where
  id := id
  currentRequestId := 0
  request := .fresh
  response := .fresh
  expiry := none
  isOpen := true
  strand := .idle
  reads := 0
  writes := []
  onWrites := []
  readCount := 0
  writers := []
  sent := []
  alive := true

variable (ctx : Context H)

/-- `HttpSession::doRead`. -/
def doRead (s : Session) : Session :=
  { s with
    currentRequestId := s.currentRequestId + 1
    expiry := if ctx.opts.readTimeOut ≠ 0 then some ctx.opts.readTimeOut else none
    reads := s.reads + 1 }

/-- `HttpSession::doWrite`. -/
def doWrite (s : Session) : Session :=
  { s with
    expiry := if ctx.opts.writeTimeOut ≠ 0 then some ctx.opts.writeTimeOut else none
    writes := s.writes ++ [⟨s.response.keepAlive ctx.boost, s.response⟩] }

/-- `HttpSession::doClose`. -/
def doClose (s : Session) : Session := { s with isOpen := false }

/-- `HttpSession::writeResponse`. -/
def writeResponse (s : Session) (rsp : HttpResponse) : Session :=
  doWrite ctx
    { s with response := writeResponseMessage ctx.boost ctx.opts s.request rsp s.response }

/-- `HttpSession::onRead`, up to the call of `processRequest`. -/
def onRead (s : Session) : ReadResult → Session × List (Output H)
  | .endOfStream => (s.doClose, [.readEnded])
  | .timeout => (s.doClose, [.readEnded, .inc .readTimeout])
  | .error => (s.doClose, [.readEnded, .inc .readFail])
  | .message received =>
      ({ s with
          request := s.request.readInto received
          strand := .processing
          readCount := s.readCount + 1 },
        [.requestRead received, .inc .readSuccess])

/-- `HttpSession::processRequest`, up to the return of the `handle()` call if it makes one. -/
def processRequest (s : Session) (now : Nat) : Session × List (Output H) :=
  match ctx.dispatch s.request s.id s.currentRequestId now with
  | .reject rsp =>
      let s' := s.writeResponse ctx rsp
      ({ s' with request := s'.request.clearBody, strand := .idle },
        [.inc .handleRequest, .dispatched (.reject rsp),
          .writeStarted s.readCount rsp s'.response])
  | .handle handler request =>
      ({ s with
          request := s.request.clearBody
          strand := .handling
          writers := s.writers ++ [s.readCount] },
        [.inc .workingHandler, .dispatched (.handle handler request)])

/-- `HttpSession::onWrite`. -/
def onWrite (s : Session) (keepAlive : Bool) : WriteResult → Session × List (Output H)
  | .timeout => (s.doClose, [.inc .writeTimeout])
  | .error => (s.doClose, [.inc .writeFail])
  | .ok =>
      if !keepAlive then (s.doClose, [.inc .writeSuccess])
      else
        let s := ({ s with response := s.response.clear.clearBody } : Session).doRead ctx
        (s, [.inc .writeSuccess, .readStarted s.currentRequestId])

/-! ## Steps -/

/-- No completion handler is running or pending, so only writers can own the session. -/
def Unowned (s : Session) : Prop :=
  s.strand = .idle ∧ s.reads = 0 ∧ s.writes.length = 0 ∧ s.onWrites.length = 0

instance (s : Session) : Decidable s.Unowned := inferInstanceAs (Decidable (_ ∧ _ ∧ _ ∧ _))

/-- One step of an existing session. -/
def stepAlive (s : Session) : Event → Option (Session × List (Output H))
  | .onRead r =>
      if s.strand = .idle ∧ 0 < s.reads then some (onRead { s with reads := s.reads - 1 } r)
      else none
  | .processRequest now =>
      if s.strand = .processing then some (s.processRequest ctx now) else none
  | .handleReturns =>
      if s.strand = .handling then some ({ s with strand := .returned }, [.dec .workingHandler])
      else none
  | .countHandled =>
      if s.strand = .returned then some ({ s with strand := .idle }, [.inc .handleRequest])
      else none
  | .send k rsp =>
      if k ∈ s.writers then
        let s' := s.writeResponse ctx rsp
        some ({ s' with sent := s.sent ++ [k] }, [.writeStarted k rsp s'.response])
      else none
  | .writeDone i r =>
      match s.writes[i]? with
      | none => none
      | some w =>
          some
            ({ s with
                writes := s.writes.eraseIdx i
                onWrites := s.onWrites ++ [(w.keepAlive, r)] },
              [.writeEnded w.keepAlive r])
  | .onWrite =>
      match s.onWrites with
      | [] => none
      | (keepAlive, r) :: rest =>
          if s.strand = .idle then some (onWrite ctx { s with onWrites := rest } keepAlive r)
          else none
  | .destroy =>
      if s.Unowned then some ({ s.doClose with alive := false }, [.dec .session]) else none

/-- One step; nothing happens to a session that no longer exists. -/
def step (s : Session) (e : Event) : Option (Session × List (Output H)) :=
  if s.alive then s.stepAlive ctx e else none

/-- The session `HttpServerImpl::onAccept` creates and runs.  `run()` dispatches `doRead` to the
session's own strand; nothing else can reach the session before it. -/
def start (id : UInt64) : Session := (new id).doRead ctx

/-- The session machine with its log. -/
def lts : LTS (Session × List (Output H)) Event := LTS.logged (step ctx)

/-- The state and the log a session starts with. -/
def init (id : UInt64) : Session × List (Output H) := (start ctx id, [.readStarted 1])

end Session

end HttpServer
