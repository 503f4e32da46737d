import HttpServerCpp.Core.Timer
import HttpServerCpp.Session.Deadlines
import HttpServerCpp.Session.History

/-!
# How long a session waits for its peer

A session of single use runs against the clock.  It waits for its peer while a read is outstanding
that has not completed, or a write is; `doRead` and `doWrite` arm the stream's timer before they
start one, and the stream ends what is outstanding when the timer expires.  Handlers may take any
time, and so may the queues of the `io_context`.

* `Step.operations`: a step starts no operation, or one under the timeout configured for it.
* `peer_waits_bounded`: with both timeouts configured, a session that has read `n` requests has
  waited for at most `n + 1` read and `n` write timeouts, whatever its peer does.
-/

namespace HttpServer

namespace Session

variable {H : Type}

/-! ## Operations -/

/-- The steps that take the completion of a read. -/
def takesRead : Event → Bool
  | .onRead _ => true
  | _ => false

/-- What a step does to the operations: it starts none, or a read, or a write. -/
lemma Step.operations {ctx : Context H} {s s' : Session} {e : Event} {o : List (Output H)}
    (h : Step ctx s e s' o) :
    (Phase.started (observations o) = 0 ∧ Phase.answered (observations o) = 0 ∧
        s'.reads + (takesRead e).toNat = s.reads ∧ s'.writes.length ≤ s.writes.length) ∨
      (Phase.started (observations o) = 1 ∧ Phase.answered (observations o) = 0 ∧
        s'.expiry = if ctx.opts.readTimeOut ≠ 0 then some ctx.opts.readTimeOut else none) ∨
      (Phase.started (observations o) = 0 ∧ Phase.answered (observations o) = 1 ∧
        s'.expiry = if ctx.opts.writeTimeOut ≠ 0 then some ctx.opts.writeTimeOut else none) := by
  cases h with
  | readEndOfStream hidle hreads => exact Or.inl ⟨rfl, rfl, Nat.sub_add_cancel hreads, le_rfl⟩
  | readTimeout hidle hreads => exact Or.inl ⟨rfl, rfl, Nat.sub_add_cancel hreads, le_rfl⟩
  | readError hidle hreads => exact Or.inl ⟨rfl, rfl, Nat.sub_add_cancel hreads, le_rfl⟩
  | requestRead received hidle hreads =>
      exact Or.inl ⟨rfl, rfl, Nat.sub_add_cancel hreads, le_rfl⟩
  | rejected now rsp hprocessing hdispatch => exact Or.inr (Or.inr ⟨rfl, rfl, rfl⟩)
  | send k rsp hk => exact Or.inr (Or.inr ⟨rfl, rfl, rfl⟩)
  | writeKept rest hidle hqueue => exact Or.inr (Or.inl ⟨rfl, rfl, rfl⟩)
  | writeDone i r w hw => exact Or.inl ⟨rfl, rfl, rfl, List.length_eraseIdx_le _ _⟩
  | _ => exact Or.inl ⟨rfl, rfl, rfl, le_rfl⟩

lemma started_append (os os' : List Obs) :
    Phase.started (os ++ os') = Phase.started os + Phase.started os' := List.countP_append

lemma answered_append (os os' : List Obs) :
    Phase.answered (os ++ os') = Phase.answered os + Phase.answered os' := by
  simp [Phase.answered, Phase.answers]

/-- How many operations were started. -/
def operations (log : List (Output H)) : Nat :=
  Phase.started (observations log) + Phase.answered (observations log)

/-! ## The session and its peer -/

/-- A session with its log, and whether the outstanding read has completed, so that its `onRead`
is queued. -/
structure Peered (H : Type) where
  run : Session × List (Output H)
  arrived : Bool

/-- The read completes, or the session takes a step. -/
inductive PeerEvent where
  | arrive
  | act (e : Event)

/-- The session of single use, in which a read completes some time before its `onRead`. -/
def peered (ctx : Context H) : LTS (Peered H) PeerEvent where
  step s
    | .arrive => if 0 < s.run.1.reads then some { s with arrived := true } else none
    | .act e =>
        if takesRead e = true ∧ s.arrived = false then none
        else ((singleUse ctx).step s.run e).map fun t => ⟨t, s.arrived && !takesRead e⟩

/-- The timer of the stream.  The session waits for its peer while an operation is outstanding. -/
def streamTimer : Timer (Peered H) where
  waiting s := (decide (0 < s.run.1.reads) && !s.arrived) || !s.run.1.writes.isEmpty
  arms s t := decide (operations s.run.2 < operations t.run.2)
  deadline now t := t.run.1.expiry.map fun n => (expiresAfter (Int64.ofNat now) n).toNatClampNeg
  horizon := 4611686018427387904

/-- Nanoseconds for every operation that was started. -/
def allowance (ctx : Context H) (s : Peered H) : Nat :=
  Phase.started (observations s.run.2) * nanoseconds ctx.opts.readTimeOut +
    Phase.answered (observations s.run.2) * nanoseconds ctx.opts.writeTimeOut

/-- The session that was started at this time. -/
def peeredInit (ctx : Context H) (id : UInt64) (now : Nat) : Timed (Peered H) :=
  ⟨⟨init ctx id, false⟩, now, streamTimer.deadline now ⟨init ctx id, false⟩, 0⟩

variable {ctx : Context H} {id : UInt64}

/-- A step of the session is a step of the untimed machine. -/
lemma peered_act {s t : Peered H} {e : Event} (h : (peered ctx).step s (.act e) = some t) :
    (singleUse ctx).step s.run e = some t.run ∧ t.arrived = (s.arrived && !takesRead e) ∧
      (takesRead e = true → s.arrived = true) := by
  simp only [peered] at h
  split_ifs at h with hqueued
  obtain ⟨u, hu, rfl⟩ := Option.map_eq_some_iff.mp h
  refine ⟨hu, rfl, fun htakes => ?_⟩
  simpa using fun harrived => hqueued ⟨htakes, harrived⟩

/-- The untimed machine reaches the state. -/
def Reached (ctx : Context H) (id : UInt64) (s : Peered H) : Prop :=
  ∃ es, (singleUse ctx).run (init ctx id) es = some s.run

lemma Reached.step {s t : Peered H} {e : PeerEvent} (hs : Reached ctx id s)
    (h : (peered ctx).step s e = some t) : Reached ctx id t := by
  obtain ⟨es, hes⟩ := hs
  cases e with
  | arrive =>
      simp only [peered] at h
      split_ifs at h
      obtain rfl := Option.some.inj h
      exact ⟨es, hes⟩
  | act e =>
      refine ⟨es ++ [e], ?_⟩
      rw [LTS.run_append, hes]
      simpa using (peered_act h).1

/-- At most one read is outstanding. -/
lemma Reached.reads_le {s : Peered H} (hs : Reached ctx id s) : s.run.1.reads ≤ 1 := by
  obtain ⟨es, hes⟩ := hs
  obtain ⟨p, -, hserves⟩ := run_serves es _ hes
  cases hserves <;> omega

/-- The operations of a step, between the states with their logs. -/
lemma peered_operations {s t : Peered H} {e : Event} (h : (peered ctx).step s (.act e) = some t) :
    ∃ o, Step ctx s.run.1 e t.run.1 o ∧
      Phase.started (observations t.run.2) =
        Phase.started (observations s.run.2) + Phase.started (observations o) ∧
      Phase.answered (observations t.run.2) =
        Phase.answered (observations s.run.2) + Phase.answered (observations o) := by
  obtain ⟨o, -, hcases, hlog⟩ := lts_step (LTS.restrict_step.mp (peered_act h).1).2
  refine ⟨o, hcases, ?_, ?_⟩
  · rw [hlog, observations_append, started_append]
  · rw [hlog, observations_append, answered_append]

/-! ## Its timer -/

/-- A timeout that is configured, and far from the end of the clock. -/
structure Configured (t : UInt64) : Prop where
  ne_zero : t ≠ 0
  small : t.toNat * 1000000000 < 4611686018427387904

lemma Configured.nanoseconds {t : UInt64} (h : Configured t) :
    nanoseconds t = t.toNat * 1000000000 := by
  have hsmall := h.small
  exact Nat.mod_eq_of_lt (by omega)

/-- The deadline of an operation that is started now. -/
lemma Configured.deadline {t : UInt64} (h : Configured t) {now : Nat}
    (hnow : now < 4611686018427387904) :
    (expiresAfter (Int64.ofNat now) t).toNatClampNeg = now + HttpServer.nanoseconds t := by
  have hclock : (Int64.ofNat now).toInt = now := Int64.toInt_ofNat_of_lt (by omega)
  have hsmall := h.small
  have hcount := h.nanoseconds
  rw [Int64.toNatClampNeg, expiresAfter_eq (by rw [hclock]; omega), hclock, if_pos (by omega)]
  omega

section Rule

variable (hread : Configured ctx.opts.readTimeOut) (hwrite : Configured ctx.opts.writeTimeOut)

include hread hwrite

/-- A step that arms the timer starts an operation, which is allowed the time it is armed for. -/
lemma peered_arms {s t : Peered H} {e : PeerEvent} {now : Nat} (hnow : now < 4611686018427387904)
    (h : (peered ctx).step s e = some t) (harms : streamTimer.arms s t = true) :
    ∃ n, streamTimer.deadline now t = some (now + n) ∧ allowance ctx s + n ≤ allowance ctx t := by
  cases e with
  | arrive =>
      simp only [peered] at h
      split_ifs at h
      obtain rfl := Option.some.inj h
      simp [streamTimer] at harms
  | act e =>
      obtain ⟨o, hcases, hstarted, hanswered⟩ := peered_operations h
      rcases hcases.operations with ⟨hs, ha, -, -⟩ | ⟨hs, ha, hexpiry⟩ | ⟨hs, ha, hexpiry⟩
      · simp [streamTimer, operations, hstarted, hanswered, hs, ha] at harms
      · refine ⟨nanoseconds ctx.opts.readTimeOut, ?_, ?_⟩
        · simp [streamTimer, hexpiry, hread.ne_zero, hread.deadline hnow]
        · simp only [allowance, hstarted, hanswered, hs, ha, Nat.add_mul]
          omega
      · refine ⟨nanoseconds ctx.opts.writeTimeOut, ?_, ?_⟩
        · simp [streamTimer, hexpiry, hwrite.ne_zero, hwrite.deadline hnow]
        · simp only [allowance, hstarted, hanswered, hs, ha, Nat.add_mul]
          omega

omit hread hwrite

/-- A step that does not arm it starts no operation, so that nothing new is awaited. -/
lemma peered_keeps {s t : Peered H} {e : PeerEvent} (hs : Reached ctx id s)
    (h : (peered ctx).step s e = some t) (harms : streamTimer.arms s t = false) :
    allowance ctx s ≤ allowance ctx t ∧
      (streamTimer.waiting t = true → streamTimer.waiting s = true) := by
  cases e with
  | arrive =>
      simp only [peered] at h
      split_ifs at h
      obtain rfl := Option.some.inj h
      refine ⟨le_rfl, fun hwaiting => ?_⟩
      simp only [streamTimer, Bool.not_true, Bool.and_false, Bool.false_or] at hwaiting
      simp [streamTimer, hwaiting]
  | act e =>
      obtain ⟨o, hcases, hstarted, hanswered⟩ := peered_operations h
      obtain ⟨-, harrived, htakes⟩ := peered_act h
      rcases hcases.operations with ⟨hso, hao, hreads, hwrites⟩ | ⟨hso, hao, -⟩ | ⟨hso, hao, -⟩
      · have hsame : allowance ctx t = allowance ctx s := by
          simp only [allowance, hstarted, hanswered, hso, hao, Nat.add_zero]
        refine ⟨hsame.ge, fun hwaiting => ?_⟩
        have hle := hs.reads_le
        simp only [streamTimer, Bool.or_eq_true, Bool.and_eq_true, decide_eq_true_eq,
          Bool.not_eq_true', List.isEmpty_eq_false_iff, ← List.length_pos_iff] at hwaiting ⊢
        rcases hwaiting with ⟨hpos, hnot⟩ | hpos
        · cases htake : takesRead e with
          | true =>
              rw [htake, Bool.toNat_true] at hreads
              omega
          | false =>
              rw [htake, Bool.toNat_false] at hreads
              exact Or.inl ⟨by omega, by simpa [harrived, htake] using hnot⟩
        · exact Or.inr (by omega)
      · simp [streamTimer, operations, hstarted, hanswered, hso, hao] at harms
      · simp [streamTimer, operations, hstarted, hanswered, hso, hao] at harms

end Rule

/-- **Slow peers.**  With both timeouts configured, in every timed run an operation that is
outstanding has a deadline which has not passed, and a session that has read `n` requests has
waited for its peer at most `n + 1` read and `n` write timeouts. -/
theorem peer_waits_bounded (ctx : Context H) (hread : Configured ctx.opts.readTimeOut)
    (hwrite : Configured ctx.opts.writeTimeOut) (id : UInt64) (now : Nat)
    (hnow : now < 4611686018427387904) (es : List (TimedEvent PeerEvent)) (t : Timed (Peered H))
    (h : ((peered ctx).timed streamTimer).run (peeredInit ctx id now) es = some t) :
    (streamTimer.waiting t.state = true → ∃ e, t.deadline = some e ∧ t.now ≤ e) ∧
      t.waited ≤ ((receivedOf t.state.run.2).length + 1) *
          (ctx.opts.readTimeOut.toNat * 1000000000) +
        (receivedOf t.state.run.2).length * (ctx.opts.writeTimeOut.toNat * 1000000000) := by
  have hinit : LTS.Timely streamTimer (allowance ctx) (peeredInit ctx id now) := by
    have hfirst : Phase.started (observations (init ctx id).2) = 1 := rfl
    have hdeadline : (peeredInit ctx id now).deadline =
        some (now + nanoseconds ctx.opts.readTimeOut) := by
      simp [peeredInit, streamTimer, init, start, doRead, hread.ne_zero, hread.deadline hnow]
    refine ⟨hnow, Nat.zero_le _, fun _ => ⟨_, hdeadline, Nat.le_add_right _ _, ?_⟩⟩
    show 0 + (now + nanoseconds ctx.opts.readTimeOut - now) ≤ allowance ctx ⟨init ctx id, false⟩
    rw [allowance, hfirst]
    omega
  obtain ⟨⟨es', hes'⟩, htimely⟩ := LTS.run_timely (P := Reached ctx id)
    (fun _ _ _ hs hstep => hs.step hstep)
    (fun _ _ _ _ _ hlt hstep harms => peered_arms hread hwrite hlt hstep harms)
    (fun _ _ _ hs hstep harms => peered_keeps hs hstep harms) ⟨[], rfl⟩ hinit h
  refine ⟨fun hwaiting => ?_, ?_⟩
  · obtain ⟨e, he, hle, -⟩ := htimely.ahead hwaiting
    exact ⟨e, he, hle⟩
  · obtain ⟨p, hp, -⟩ := run_serves es' _ hes'
    have hchain := Phase.chain_of_tally (Phase.run_tally _ _ hp)
    have hreads : Phase.started (observations t.state.run.2) ≤
        Phase.arrived (observations t.state.run.2) + 1 :=
      hchain.started_le.trans (Nat.succ_le_succ
        (hchain.completed_le.trans (hchain.answered_le.trans hchain.dispatches_le)))
    have hwrites := hchain.answered_le.trans hchain.dispatches_le
    rw [length_receivedOf, ← hread.nanoseconds, ← hwrite.nanoseconds]
    exact htimely.waited_le.trans
      (Nat.add_le_add (Nat.mul_le_mul_right _ hreads) (Nat.mul_le_mul_right _ hwrites))

/-- The peer takes five seconds for its request and one for the response, and is then silent until
the second read expires. -/
def slowExchange : List (TimedEvent PeerEvent) :=
  [.pass 5000000000, .act .arrive, .pass 7000000000] ++
    [Event.onRead (.message (getRequest "/hello")), .processRequest 0,
      .send 1 (.new .OK "hello" "text/plain"), .handleReturns, .countHandled].map (.act ∘ .act) ++
    [.pass 1000000000] ++ [Event.writeDone 0 .ok, .onWrite].map (.act ∘ .act) ++
    [.pass 60000000000]

theorem peer_waits_bounded_hello :
    ∃ t, ((peered helloContext).timed streamTimer).run (peeredInit helloContext 1 1000)
        slowExchange = some t ∧
      t.waited = 66000000000 ∧ t.deadline = some t.now ∧
      t.waited ≤ (1 + 1) * (60 * 1000000000) + 1 * (60 * 1000000000) := by
  have hminute : Configured 60 := ⟨by decide, by decide⟩
  have hrun : ∃ t, ((peered helloContext).timed streamTimer).run (peeredInit helloContext 1 1000)
      slowExchange = some t ∧ t.waited = 66000000000 ∧ t.deadline = some t.now ∧
      (receivedOf t.state.run.2).length = 1 := ⟨_, rfl, rfl, rfl, rfl⟩
  obtain ⟨t, ht, hwaited, hdeadline, hone⟩ := hrun
  have hbound := (peer_waits_bounded helloContext hminute hminute 1 1000 (by decide) slowExchange
    t ht).2
  rw [hone] at hbound
  exact ⟨t, ht, hwaited, hdeadline, hbound⟩

end Session

end HttpServer
