import Mathlib.Algebra.Ring.Int.Defs
import HttpServerCpp.Session.InFlight

/-!
# Deadlines

`doRead` and `doWrite` arm a timeout of some seconds, which `expires_after` turns into a point of
the steady clock: an unsigned number of seconds becomes a signed one, is scaled to nanoseconds and
added to the current time, each in 64 bits.

A timeout of `t` seconds thus counts for `t * 10 ^ 9` nanoseconds modulo `2 ^ 64` (`nanoseconds`).
`keepsDeadlines_iff` says for which timeouts deadlines lie ahead and in the right order; those
below some nine billion seconds do (`inRange_of_lt`).
-/

namespace HttpServer

/-! ## The clock -/

/-- `stream_.expires_after(std::chrono::seconds(t))`, called at the time `now`. -/
def expiresAfter (now : Int64) (t : UInt64) : Int64 := now + t.toInt64 * 1000000000

/-- What a timeout counts for. -/
def nanoseconds (t : UInt64) : Nat := t.toNat * 1000000000 % 2 ^ 64

lemma expiresAfter_toInt (now : Int64) (t : UInt64) :
    (expiresAfter now t).toInt = (now.toInt + nanoseconds t).bmod (2 ^ 64) := by
  have hseconds : t.toInt64.toInt = (t.toNat : Int).bmod (2 ^ 64) := BitVec.toInt_eq_toNat_bmod _
  have hscale : (1000000000 : Int64).toInt = 1000000000 := rfl
  have hcount : (nanoseconds t : Int) = (t.toNat : Int) * 1000000000 % (2 ^ 64 : Nat) := by
    simp [nanoseconds]
  rw [expiresAfter, Int64.toInt_add, Int64.toInt_mul, hseconds, hscale, hcount,
    Int.add_bmod_bmod, Int.add_emod_bmod]
  exact Int.add_bmod_eq_add_bmod_left _ Int.bmod_mul_bmod

/-- Far from the end of the clock the count is added; beyond it the sum wraps around. -/
lemma expiresAfter_eq {now : Int64} (hnow : 0 ≤ now.toInt ∧ now.toInt < 2 ^ 62) (t : UInt64) :
    (expiresAfter now t).toInt =
      if now.toInt + nanoseconds t < 2 ^ 63 then now.toInt + nanoseconds t
      else now.toInt + nanoseconds t - 2 ^ 64 := by
  have hcount : nanoseconds t < 2 ^ 64 := Nat.mod_lt _ (by decide)
  rw [expiresAfter_toInt, Int.bmod]
  split_ifs <;> omega

/-! ## Arming -/

/-- The two operations with a timeout. -/
inductive TimedOperation where
  | read | write
deriving DecidableEq

namespace TimedOperation

variable {H : Type}

/-- The configured timeout, in seconds. -/
def timeout (opts : HttpServerOptions) : TimedOperation → UInt64
  | read => opts.readTimeOut
  | write => opts.writeTimeOut

/-- The function that starts the operation. -/
def start (ctx : Context H) (s : Session) : TimedOperation → Session
  | read => s.doRead ctx
  | write => s.doWrite ctx

/-- The point of the clock at which the operation expires, when it is started at `now`. -/
def deadline (ctx : Context H) (s : Session) (now : Int64) (op : TimedOperation) : Option Int64 :=
  (op.start ctx s).expiry.map (expiresAfter now)

lemma deadline_eq (ctx : Context H) (s : Session) (now : Int64) (op : TimedOperation) :
    op.deadline ctx s now =
      if op.timeout ctx.opts = 0 then none else some (expiresAfter now (op.timeout ctx.opts)) := by
  cases op with
  | read =>
      simp only [deadline, start, Session.doRead, timeout]
      by_cases h : ctx.opts.readTimeOut = 0 <;> simp [h]
  | write =>
      simp only [deadline, start, Session.doWrite, timeout]
      by_cases h : ctx.opts.writeTimeOut = 0 <;> simp [h]

/-- The operation has a deadline, which lies ahead, exactly when a timeout is configured. -/
def Ahead (ctx : Context H) (s : Session) (now : Int64) (op : TimedOperation) : Prop :=
  (op.timeout ctx.opts = 0 → op.deadline ctx s now = none) ∧
    (op.timeout ctx.opts ≠ 0 → ∃ e, op.deadline ctx s now = some e ∧ now < e)

/-- In two servers deadlines lie ahead, and the one with the larger timeout does not have the
earlier deadline. -/
def KeepsDeadlines (ctx ctx' : Context H) (s s' : Session) (now : Int64) (op : TimedOperation) :
    Prop :=
  op.Ahead ctx s now ∧ op.Ahead ctx' s' now ∧
    ∀ e e', op.deadline ctx s now = some e → op.deadline ctx' s' now = some e' →
      op.timeout ctx.opts ≤ op.timeout ctx'.opts → e ≤ e'

end TimedOperation

/-- The timeout is off, or counts for something and does not run past the end of the clock. -/
def InRange (now : Int64) (t : UInt64) : Prop :=
  t = 0 ∨ 0 < nanoseconds t ∧ now.toInt + nanoseconds t < 2 ^ 63

/-- Timeouts whose nanoseconds fit on the clock count for what they say. -/
lemma nanoseconds_of_lt {now : Int64} (hnow : 0 ≤ now.toInt) {t : UInt64}
    (h : now.toInt + t.toNat * 1000000000 < 2 ^ 63) : nanoseconds t = t.toNat * 1000000000 :=
  Nat.mod_eq_of_lt (by omega)

lemma inRange_of_lt {now : Int64} (hnow : 0 ≤ now.toInt) {t : UInt64}
    (h : now.toInt + t.toNat * 1000000000 < 2 ^ 63) : InRange now t := by
  have hcount := nanoseconds_of_lt hnow h
  by_cases hzero : t = 0
  · exact Or.inl hzero
  · have hpos : t.toNat ≠ 0 := fun h0 => hzero (UInt64.toNat_inj.mp h0)
    refine Or.inr ⟨?_, ?_⟩
    · rw [hcount]
      omega
    · rw [hcount, Int.natCast_mul]
      exact h

section Bounds

variable {now : Int64} (hnow : 0 ≤ now.toInt ∧ now.toInt < 2 ^ 62)

include hnow

/-- A deadline lies ahead exactly when its timeout is in range. -/
lemma lt_expiresAfter_iff (t : UInt64) :
    now < expiresAfter now t ↔ 0 < nanoseconds t ∧ now.toInt + nanoseconds t < 2 ^ 63 := by
  have hcount : nanoseconds t < 2 ^ 64 := Nat.mod_lt _ (by decide)
  rw [Int64.lt_iff_toInt_lt, expiresAfter_eq hnow]
  split_ifs <;> omega

/-- Deadlines in range are in the order of their counts. -/
lemma expiresAfter_le_iff {t t' : UInt64} (h : now.toInt + nanoseconds t < 2 ^ 63)
    (h' : now.toInt + nanoseconds t' < 2 ^ 63) :
    expiresAfter now t ≤ expiresAfter now t' ↔ nanoseconds t ≤ nanoseconds t' := by
  rw [Int64.le_iff_toInt_le, expiresAfter_eq hnow, expiresAfter_eq hnow, if_pos h, if_pos h']
  omega

lemma TimedOperation.ahead_iff {H : Type} (ctx : Context H) (s : Session) (op : TimedOperation) :
    op.Ahead ctx s now ↔ InRange now (op.timeout ctx.opts) := by
  rw [Ahead, deadline_eq, InRange, ← lt_expiresAfter_iff hnow]
  by_cases hzero : op.timeout ctx.opts = 0 <;> simp [hzero]

end Bounds

/-- **When deadlines are kept.**  Started at the same time in two servers, an operation has a
deadline ahead wherever a timeout is configured, and no earlier one for the larger timeout,
exactly when both timeouts are in range and count for nanoseconds in their own order. -/
theorem keepsDeadlines_iff {H : Type} (ctx ctx' : Context H) (s s' : Session) (now : Int64)
    (op : TimedOperation) (hnow : 0 ≤ now.toInt ∧ now.toInt < 2 ^ 62) :
    op.KeepsDeadlines ctx ctx' s s' now ↔
      InRange now (op.timeout ctx.opts) ∧ InRange now (op.timeout ctx'.opts) ∧
        (op.timeout ctx.opts ≠ 0 → op.timeout ctx.opts ≤ op.timeout ctx'.opts →
          nanoseconds (op.timeout ctx.opts) ≤ nanoseconds (op.timeout ctx'.opts)) := by
  rw [TimedOperation.KeepsDeadlines, TimedOperation.ahead_iff hnow,
    TimedOperation.ahead_iff hnow]
  refine and_congr_right fun h => and_congr_right fun h' => ?_
  rw [TimedOperation.deadline_eq, TimedOperation.deadline_eq]
  generalize op.timeout ctx.opts = t at h ⊢
  generalize op.timeout ctx'.opts = t' at h' ⊢
  rcases h with rfl | ⟨-, hend⟩
  · simp
  by_cases hzero : t = 0
  · simp [hzero]
  rcases h' with rfl | ⟨-, hend'⟩
  · have hbelow : ¬ t ≤ 0 := fun hle => hzero (UInt64.le_antisymm hle (UInt64.zero_le))
    simp [hzero, hbelow]
  · by_cases hzero' : t' = 0
    · have hbelow : ¬ t ≤ 0 := fun hle => hzero (UInt64.le_antisymm hle (UInt64.zero_le))
      simp [hzero', hzero, hbelow]
    · simp [hzero, hzero', expiresAfter_le_iff hnow hend hend']

/-- A server with this read timeout. -/
def timedContext (t : UInt64) : Context Unit := { helloContext with opts := { readTimeOut := t } }

/-- One minute and one hour, after some thirty years. -/
theorem keepsDeadlines_iff_minute :
    TimedOperation.read.KeepsDeadlines (timedContext 60) (timedContext 3600) (.new 1) (.new 1)
      1000000000000000000 :=
  (keepsDeadlines_iff (timedContext 60) (timedContext 3600) (.new 1) (.new 1) 1000000000000000000
    .read (by decide)).mpr ⟨inRange_of_lt (by decide) (by decide), inRange_of_lt (by decide)
    (by decide), fun _ _ => by decide⟩

/-- The largest timeout counts as minus one second. -/
theorem largest_timeout_past :
    TimedOperation.read.deadline (timedContext 18446744073709551615) (.new 1)
        1000000000000000000 = some 999999999000000000 ∧
      ¬ TimedOperation.read.KeepsDeadlines (timedContext 60) (timedContext 18446744073709551615)
        (.new 1) (.new 1) 1000000000000000000 := by
  have hpast : TimedOperation.read.deadline (timedContext 18446744073709551615) (.new 1)
      1000000000000000000 = some 999999999000000000 := by decide
  refine ⟨hpast, fun h => ?_⟩
  obtain ⟨e, he, hlt⟩ := h.2.1.2 (by decide)
  obtain rfl := Option.some.inj (hpast.symm.trans he)
  exact absurd hlt (by decide)

end HttpServer
