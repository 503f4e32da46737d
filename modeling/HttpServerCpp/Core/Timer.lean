import HttpServerCpp.Core.Transition

/-!
# Waiting under a timer

A system in some of whose states something outside is awaited, run against a clock.  A step takes
no time and may arm the timer; in between time passes, and while something is awaited it passes
only up to the armed deadline, since the timer ends the wait there.

* `Timely` is the invariant: what is awaited has a deadline ahead, and waiting until then stays
  within the budget of the state.
* `run_timely` is the rule for it.  It asks of an untimed step that arming the timer for some time
  adds as much to the budget, and that nothing new is awaited without arming it.
-/

namespace HttpServer

variable {σ ε : Type}

/-- When a system waits, which steps arm its timer, and the deadline that a step armed when it led
to a state at some time.  The clock is only good for times below the horizon. -/
structure Timer (σ : Type) where
  waiting : σ → Bool
  arms : σ → σ → Bool
  deadline : Nat → σ → Option Nat
  horizon : Nat

/-- A state with the time, the deadline that is armed, and how long the system has waited. -/
structure Timed (σ : Type) where
  state : σ
  now : Nat
  deadline : Option Nat
  waited : Nat

/-- Time passes, or the system takes a step. -/
inductive TimedEvent (ε : Type) where
  | pass (d : Nat)
  | act (e : ε)

namespace LTS

variable (L : LTS σ ε) (T : Timer σ)

/-- The system with its clock. -/
def timed : LTS (Timed σ) (TimedEvent ε) where
  step s
    | .pass d =>
        if s.now + d < T.horizon ∧
            (T.waiting s.state = true → ∀ e ∈ s.deadline, s.now + d ≤ e) then
          some { s with
            now := s.now + d
            waited := s.waited + bif T.waiting s.state then d else 0 }
        else none
    | .act e =>
        (L.step s.state e).map fun t =>
          { s with
            state := t
            deadline := if T.arms s.state t then T.deadline s.now t else s.deadline }

/-- What is awaited has a deadline ahead, and waiting until then stays within the budget. -/
structure Timely (budget : σ → Nat) (s : Timed σ) : Prop where
  now_lt : s.now < T.horizon
  waited_le : s.waited ≤ budget s.state
  ahead : T.waiting s.state = true →
    ∃ e, s.deadline = some e ∧ s.now ≤ e ∧ s.waited + (e - s.now) ≤ budget s.state

variable {L T} {budget : σ → Nat}

lemma Timely.pass {s t : Timed σ} {d : Nat} (hs : Timely T budget s)
    (h : (L.timed T).step s (.pass d) = some t) : t.state = s.state ∧ Timely T budget t := by
  simp only [timed] at h
  split_ifs at h with hpass
  obtain rfl := Option.some.inj h
  obtain ⟨hhorizon, hdeadline⟩ := hpass
  cases hwaiting : T.waiting s.state with
  | false =>
      refine ⟨rfl, hhorizon, hs.waited_le, fun hnot => ?_⟩
      exact absurd (hwaiting.symm.trans hnot) Bool.false_ne_true
  | true =>
      obtain ⟨e, he, -, hbudget⟩ := hs.ahead hwaiting
      have hle := hdeadline hwaiting e he
      refine ⟨rfl, hhorizon, ?_, fun _ => ⟨e, he, hle, ?_⟩⟩
      · show s.waited + d ≤ budget s.state
        omega
      · show s.waited + d + (e - (s.now + d)) ≤ budget s.state
        omega

lemma Timely.act {s t : Timed σ} {e : ε} (hs : Timely T budget s)
    (harms : ∀ u, L.step s.state e = some u → T.arms s.state u = true →
      ∃ n, T.deadline s.now u = some (s.now + n) ∧ budget s.state + n ≤ budget u)
    (hkeeps : ∀ u, L.step s.state e = some u → T.arms s.state u = false →
      budget s.state ≤ budget u ∧ (T.waiting u = true → T.waiting s.state = true))
    (h : (L.timed T).step s (.act e) = some t) :
    L.step s.state e = some t.state ∧ Timely T budget t := by
  simp only [timed, Option.map_eq_some_iff] at h
  obtain ⟨u, hu, rfl⟩ := h
  refine ⟨hu, ?_⟩
  have hwaited := hs.waited_le
  cases hcase : T.arms s.state u with
  | true =>
      obtain ⟨n, hdeadline, hbudget⟩ := harms u hu hcase
      have hgrows : s.waited + n ≤ budget u := by omega
      refine ⟨hs.now_lt, Nat.le_trans (Nat.le_add_right _ n) hgrows, fun _ => ?_⟩
      refine ⟨s.now + n, by simp [hdeadline], Nat.le_add_right _ _, ?_⟩
      show s.waited + (s.now + n - s.now) ≤ budget u
      omega
  | false =>
      obtain ⟨hbudget, hkeep⟩ := hkeeps u hu hcase
      refine ⟨hs.now_lt, Nat.le_trans hwaited hbudget, fun hwaiting => ?_⟩
      obtain ⟨e, he, hle, hrest⟩ := hs.ahead (hkeep hwaiting)
      exact ⟨e, by simp [he], hle, Nat.le_trans hrest hbudget⟩

/-- **The rule for timed runs.**  `P` is an invariant of the untimed system that the conditions on
its steps may use. -/
theorem run_timely {P : σ → Prop} {s₀ : Timed σ}
    (hP : ∀ s e t, P s → L.step s e = some t → P t)
    (harms : ∀ s e t now, P s → now < T.horizon → L.step s e = some t → T.arms s t = true →
      ∃ n, T.deadline now t = some (now + n) ∧ budget s + n ≤ budget t)
    (hkeeps : ∀ s e t, P s → L.step s e = some t → T.arms s t = false →
      budget s ≤ budget t ∧ (T.waiting t = true → T.waiting s = true))
    (hinit : P s₀.state) (htimely : Timely T budget s₀) {es : List (TimedEvent ε)} {s : Timed σ}
    (h : (L.timed T).run s₀ es = some s) : P s.state ∧ Timely T budget s := by
  refine run_invariant (P := fun s => P s.state ∧ Timely T budget s) ⟨hinit, htimely⟩ ?_ h
  rintro s e t ⟨hs, hbudget⟩ hstep
  cases e with
  | pass d =>
      obtain ⟨hstate, ht⟩ := hbudget.pass hstep
      exact ⟨hstate ▸ hs, ht⟩
  | act e =>
      obtain ⟨hact, ht⟩ := hbudget.act
        (fun u hu harm => harms _ e u _ hs hbudget.now_lt hu harm)
        (fun u hu hkeep => hkeeps _ e u hs hu hkeep) hstep
      exact ⟨hP _ e _ hs hact, ht⟩

end LTS

end HttpServer
