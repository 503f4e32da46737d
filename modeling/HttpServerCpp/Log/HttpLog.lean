import Mathlib.Data.List.Basic

/-!
# The global logger

`initLog` (`src/http_log.cpp`) on the state it works on: its own flag, and the thread pool and the
default logger of spdlog.  Sinks are assumed to open.  Creating a thread pool may fail, and how is
a parameter.

The flag that makes later calls fail is set before the options are looked at.
`rejectedChangesNothing_iff`: a rejected call is without effect only in the sequences in which
none is rejected before the logger is installed.
-/

namespace HttpServer

/-! ## Options and state -/

/-- `AsyncModeOptions`. -/
structure AsyncModeOptions where
  queueSize : UInt64 := 10000
  threadCount : UInt64 := 1

/-- `FileModeOptions`. -/
structure FileModeOptions where
  fileName : String := ""
  fileSize : UInt64 := 0
  filesCount : UInt64 := 0
  truncate : Bool := false

/-- `LogOptions`. -/
structure LogOptions where
  enableConsoleMode : Bool := true
  enableFileMode : Bool := false
  enableAsyncMode : Bool := false
  fileModeOptions : FileModeOptions := {}
  asyncModeOptions : AsyncModeOptions := {}

/-- The sinks `initLog` creates. -/
inductive LogSink where
  | stdoutColor
  | basicFile (fileName : String) (truncate : Bool)
  | rotatingFile (fileName : String) (fileSize filesCount : UInt64)
deriving DecidableEq

/-- A logger of spdlog; an asynchronous one hands its messages to the thread pool. -/
structure Logger where
  name : String
  sinks : List LogSink
  async : Bool
  pattern : String
deriving DecidableEq

/-- The global state: `init_flag`, and what spdlog keeps. -/
structure LogState where
  initFlag : Bool
  threadPool : Option (UInt64 × UInt64)
  defaultLogger : Logger
deriving DecidableEq

/-- The state at program start, with the logger that spdlog starts with. -/
def LogState.initial (logger : Logger) : LogState := ⟨false, none, logger⟩

/-! ## The function -/

/-- `default_log_name`. -/
def defaultLogName : String := "http server"

/-- `default_log_pattern`. -/
def defaultLogPattern : String := "%Y-%m-%dT%H:%M:%S.%e|%L|%t|%n|%v|%s|line#%#|"

/-- The message of a second call. -/
def alreadyInitialized : String :=
  "logger was already initialized, call the function once at program start (or never)"

/-- The sink of the file mode. -/
def FileModeOptions.sink (opts : FileModeOptions) : LogSink :=
  if opts.fileSize = 0 ∨ opts.filesCount = 0 then .basicFile opts.fileName opts.truncate
  else .rotatingFile opts.fileName opts.fileSize opts.filesCount

/-- `initLog`, with the state after the call; `initThreadPool` is
`spdlog::init_thread_pool(queue_size, thread_count)`. -/
def initLog (initThreadPool : UInt64 → UInt64 → Except String Unit) (s : LogState)
    (opts : LogOptions) : Except String Unit × LogState :=
  if s.initFlag then (.error alreadyInitialized, s)
  else
    let s := { s with initFlag := true }
    let sinks := if opts.enableConsoleMode then [.stdoutColor] else []
    if opts.enableFileMode ∧ opts.fileModeOptions.fileName = "" then
      (.error "logger filename is empty when file mode enable", s)
    else
      let sinks := if opts.enableFileMode then sinks ++ [opts.fileModeOptions.sink] else sinks
      if sinks.length = 0 then (.error "there is no valid logger sinks", s)
      else if opts.enableAsyncMode then
        let queueSize := opts.asyncModeOptions.queueSize
        let threadCount := opts.asyncModeOptions.threadCount
        if queueSize = 0 ∨ threadCount = 0 then
          (.error "logger queue size or thread count is invalid", s)
        else
          match initThreadPool queueSize threadCount with
          | .error e => (.error e, s)
          | .ok () =>
              (.ok (),
                { s with
                  threadPool := some (queueSize, threadCount)
                  defaultLogger := ⟨defaultLogName, sinks, true, defaultLogPattern⟩ })
      else
        (.ok (), { s with defaultLogger := ⟨defaultLogName, sinks, false, defaultLogPattern⟩ })

/-- The state after a sequence of calls. -/
def initLogs (initThreadPool : UInt64 → UInt64 → Except String Unit) :
    LogState → List LogOptions → LogState
  | s, [] => s
  | s, opts :: calls => initLogs initThreadPool (initLog initThreadPool s opts).2 calls

/-! ## What is asked for -/

/-- A sink is enabled, the file mode has a file name, the asynchronous mode a queue and a
thread. -/
structure LogOptions.Valid (opts : LogOptions) : Prop where
  sink : opts.enableConsoleMode = true ∨ opts.enableFileMode = true
  fileName : opts.enableFileMode = true → opts.fileModeOptions.fileName ≠ ""
  async : opts.enableAsyncMode = true →
    opts.asyncModeOptions.queueSize ≠ 0 ∧ opts.asyncModeOptions.threadCount ≠ 0

/-- The console, then the file. -/
def LogOptions.sinks (opts : LogOptions) : List LogSink :=
  (if opts.enableConsoleMode then [.stdoutColor] else []) ++
    if opts.enableFileMode then [opts.fileModeOptions.sink] else []

/-- The thread pool of the options, if they need one, can be created. -/
def LogOptions.PoolStarts (initThreadPool : UInt64 → UInt64 → Except String Unit)
    (opts : LogOptions) : Prop :=
  opts.enableAsyncMode = true →
    initThreadPool opts.asyncModeOptions.queueSize opts.asyncModeOptions.threadCount = .ok ()

section Calls

variable {initThreadPool : UInt64 → UInt64 → Except String Unit} {s : LogState}
  {opts : LogOptions}

lemma initLog_initialized (h : s.initFlag = true) :
    initLog initThreadPool s opts = (.error alreadyInitialized, s) := by
  rw [initLog, if_pos h]

lemma sinks_eq_nil : opts.sinks.length = 0 ↔
    opts.enableConsoleMode = false ∧ opts.enableFileMode = false := by
  unfold LogOptions.sinks
  cases opts.enableConsoleMode <;> cases opts.enableFileMode <;> simp

/-- **The two outcomes of a first call.**  Either it installs the logger that its options describe,
or its options are not fit for that and it throws, with the flag set. -/
lemma initLog_cases (hs : s.initFlag = false) :
    (opts.Valid ∧ opts.PoolStarts initThreadPool) ∧
        (∃ pool, initLog initThreadPool s opts =
          (.ok (), ⟨true, pool,
            ⟨defaultLogName, opts.sinks, opts.enableAsyncMode, defaultLogPattern⟩⟩)) ∨
      ¬ (opts.Valid ∧ opts.PoolStarts initThreadPool) ∧
        ∃ e, initLog initThreadPool s opts = (.error e, { s with initFlag := true }) := by
  have hsinks : (if opts.enableFileMode = true then
      (if opts.enableConsoleMode = true then [LogSink.stdoutColor] else []) ++
        [opts.fileModeOptions.sink]
      else if opts.enableConsoleMode = true then [LogSink.stdoutColor] else []) = opts.sinks := by
    unfold LogOptions.sinks
    cases opts.enableFileMode <;> simp
  unfold initLog
  rw [if_neg (by simp [hs])]
  simp only [hsinks]
  by_cases hname : opts.enableFileMode = true ∧ opts.fileModeOptions.fileName = ""
  · rw [if_pos hname]
    exact Or.inr ⟨fun h => h.1.fileName hname.1 hname.2, _, rfl⟩
  rw [if_neg hname]
  by_cases hnone : opts.sinks.length = 0
  · rw [if_pos hnone]
    obtain ⟨hconsole, hfile⟩ := sinks_eq_nil.mp hnone
    exact Or.inr ⟨fun h => by simpa [hconsole, hfile] using h.1.sink, _, rfl⟩
  rw [if_neg hnone]
  have hsink : opts.enableConsoleMode = true ∨ opts.enableFileMode = true := by
    by_contra hneither
    exact hnone (sinks_eq_nil.mpr (by simpa using hneither))
  have hfileName : opts.enableFileMode = true → opts.fileModeOptions.fileName ≠ "" :=
    fun hfile hempty => hname ⟨hfile, hempty⟩
  by_cases hasync : opts.enableAsyncMode = true
  · rw [if_pos hasync]
    by_cases hzero : opts.asyncModeOptions.queueSize = 0 ∨ opts.asyncModeOptions.threadCount = 0
    · rw [if_pos hzero]
      refine Or.inr ⟨fun h => ?_, _, rfl⟩
      rcases hzero with hzero | hzero
      · exact (h.1.async hasync).1 hzero
      · exact (h.1.async hasync).2 hzero
    · rw [if_neg hzero]
      cases hpool : initThreadPool opts.asyncModeOptions.queueSize
          opts.asyncModeOptions.threadCount with
      | error e =>
          refine Or.inr ⟨fun h => ?_, e, rfl⟩
          cases hpool.symm.trans (h.2 hasync)
      | ok u =>
          refine Or.inl ⟨⟨⟨hsink, hfileName, fun _ => not_or.mp hzero⟩, fun _ => hpool⟩, ?_⟩
          rw [hasync]
          exact ⟨_, rfl⟩
  · rw [if_neg hasync]
    refine Or.inl ⟨⟨⟨hsink, hfileName, fun h => absurd h hasync⟩, fun h => absurd h hasync⟩, ?_⟩
    rw [Bool.eq_false_iff.mpr hasync]
    exact ⟨_, rfl⟩

/-- Every call leaves the flag set, whatever becomes of it. -/
lemma initLog_initFlag : (initLog initThreadPool s opts).2.initFlag = true := by
  cases hs : s.initFlag with
  | true => rw [initLog_initialized hs, hs]
  | false =>
      rcases initLog_cases hs with ⟨-, pool, h⟩ | ⟨-, e, h⟩
      · rw [h]
      · rw [h]

/-- After a call the state does not change any more. -/
lemma initLogs_initialized (h : s.initFlag = true) (calls : List LogOptions) :
    initLogs initThreadPool s calls = s := by
  induction calls with
  | nil => rfl
  | cons opts calls ih => rw [initLogs, initLog_initialized h, ih]

end Calls

/-! ## Whether a rejected call changes nothing -/

/-- In a sequence of calls from program start: the first valid call returns and installs a logger
with the sinks of its options, every call after it is told so, and every call before it throws and
leaves flag and logger as they were. -/
def RejectedChangesNothing (initThreadPool : UInt64 → UInt64 → Except String Unit)
    (logger : Logger) (calls : List LogOptions) : Prop :=
  ∀ before opts after s result s', calls = before ++ opts :: after →
    initLogs initThreadPool (.initial logger) before = s →
    initLog initThreadPool s opts = (result, s') →
    ((∀ earlier ∈ before, ¬ earlier.Valid) → opts.Valid →
      result = .ok () ∧ s'.initFlag = true ∧ s'.defaultLogger.sinks = opts.sinks) ∧
    ((∀ earlier ∈ before, ¬ earlier.Valid) → ¬ opts.Valid →
      (∃ e, result = .error e) ∧ s'.initFlag = s.initFlag ∧ s'.defaultLogger = s.defaultLogger) ∧
    ((∃ earlier ∈ before, earlier.Valid) → result = .error alreadyInitialized)

/-- **When a rejected call changes nothing**: when no call is rejected before the logger is
installed. -/
theorem rejectedChangesNothing_iff (initThreadPool : UInt64 → UInt64 → Except String Unit)
    (logger : Logger) (calls : List LogOptions) :
    RejectedChangesNothing initThreadPool logger calls ↔
      ∀ first ∈ calls.head?, first.Valid ∧ first.PoolStarts initThreadPool := by
  have hfresh : (LogState.initial logger).initFlag = false := rfl
  constructor
  · intro h first hfirst
    obtain ⟨rest, rfl⟩ := List.head?_eq_some_iff.mp hfirst
    rcases initLog_cases hfresh with ⟨hfit, -⟩ | ⟨-, e, hcall⟩
    · exact hfit
    · -- the call throws, and has set the flag
      obtain ⟨hinstalls, hrejects, -⟩ := h [] first rest _ _ _ rfl rfl hcall
      by_cases hvalid : first.Valid
      · cases (hinstalls (by simp) hvalid).1
      · cases (hrejects (by simp) hvalid).2.1
  · rintro hfirst before opts after s result s' rfl rfl hcall
    rcases before with _ | ⟨first, before⟩
    · obtain ⟨hvalid, hpool⟩ := hfirst opts (by simp)
      rcases initLog_cases hfresh with ⟨-, pool, hinstalled⟩ | ⟨hunfit, -⟩
      · obtain ⟨rfl, rfl⟩ := Prod.mk.inj (hinstalled.symm.trans hcall)
        exact ⟨fun _ _ => ⟨rfl, rfl, rfl⟩, fun _ hinvalid => absurd hvalid hinvalid, by simp⟩
      · exact absurd ⟨hvalid, hpool⟩ hunfit
    · obtain ⟨hvalid, -⟩ := hfirst first (by simp)
      have hset : (initLog initThreadPool (.initial logger) first).2.initFlag = true :=
        initLog_initFlag
      rw [initLogs, initLogs_initialized hset, initLog_initialized hset] at hcall
      obtain ⟨rfl, rfl⟩ := Prod.mk.inj hcall
      exact ⟨fun hnone => absurd hvalid (hnone first (by simp)),
        fun hnone => absurd hvalid (hnone first (by simp)), fun _ => rfl⟩

/-- The logger that spdlog starts with. -/
def startupLogger : Logger := ⟨"", [.stdoutColor], false, "%+"⟩

/-- A first call without a sink throws, and the valid call after it throws too. -/
theorem rejected_call_poisons :
    ¬ ({ enableConsoleMode := false } : LogOptions).Valid ∧ ({} : LogOptions).Valid ∧
      initLog (fun _ _ => .ok ()) (.initial startupLogger) { enableConsoleMode := false } =
        (.error "there is no valid logger sinks", ⟨true, none, startupLogger⟩) ∧
      initLog (fun _ _ => .ok ()) ⟨true, none, startupLogger⟩ {} =
        (.error alreadyInitialized, ⟨true, none, startupLogger⟩) ∧
      ¬ RejectedChangesNothing (fun _ _ => .ok ()) startupLogger
        [{ enableConsoleMode := false }, {}] := by
  have hinvalid : ¬ ({ enableConsoleMode := false } : LogOptions).Valid := by
    rintro ⟨hsink, -, -⟩
    simp at hsink
  refine ⟨hinvalid, ⟨Or.inl rfl, by simp, by simp⟩, rfl, rfl, fun h => ?_⟩
  have hflag := ((h [] { enableConsoleMode := false } [{}] _ _ _ rfl rfl rfl).2.1 (by simp)
    hinvalid).2.1
  cases hflag

end HttpServer
