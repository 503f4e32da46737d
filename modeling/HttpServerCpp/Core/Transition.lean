import Mathlib.Data.List.Induction

/-!
# Labelled transition systems with an executable step

The concurrent parts of a program are modelled as step functions `σ → ε → Option σ`: an event
that is not enabled in a state is `none`.  This file is the part of the development that knows
nothing about any program.

* `LTS.run` runs a list of events; `run_append` and `run_snoc` cut a run in two.
* `LTS.run_induction` is the one induction every run theorem uses: a fact about (events so far,
  state reached) that holds at the start and survives one step holds along the whole run.
* `LTS.Reaches` orders the states of a run.
* `LTS.restrict` keeps the steps that meet a condition, so "every run whose steps all meet `C`"
  is a run of `L.restrict C`.
* `LTS.countSteps` counts the steps of a run that meet a condition, `run_counts` is the rule for a
  number that grows by one with each of them.
* `run_length_le` bounds the length of runs by a potential, and `exists_run_ending` finds a run to
  the end in a system that has a step to take in every other state.
* `LTS.logged` turns a step function that also emits observations into a system whose state
  carries the log of everything emitted.
-/

namespace HttpServer

/-- A transition system given by its step function; `none` is an event that is not enabled. -/
structure LTS (σ ε : Type) where
  step : σ → ε → Option σ

namespace LTS

variable {σ ε ω : Type}

/-- Run a list of events, stopping with `none` at the first one that is not enabled. -/
def run (L : LTS σ ε) : σ → List ε → Option σ
  | s, [] => some s
  | s, e :: es => (L.step s e).bind fun s' => run L s' es

@[simp] lemma run_nil (L : LTS σ ε) (s : σ) : L.run s [] = some s := rfl

@[simp] lemma run_cons (L : LTS σ ε) (s : σ) (e : ε) (es : List ε) :
    L.run s (e :: es) = (L.step s e).bind fun s' => L.run s' es := rfl

lemma run_append (L : LTS σ ε) (s : σ) (es fs : List ε) :
    L.run s (es ++ fs) = (L.run s es).bind fun s' => L.run s' fs := by
  induction es generalizing s with
  | nil => rfl
  | cons e es ih =>
      simp only [List.cons_append, run_cons, Option.bind_assoc]
      congr 1
      funext s'
      exact ih s'

/-- The last step of a run. -/
lemma run_snoc {L : LTS σ ε} {s t : σ} {es : List ε} {e : ε}
    (h : L.run s (es ++ [e]) = some t) : ∃ u, L.run s es = some u ∧ L.step u e = some t := by
  rw [run_append] at h
  obtain ⟨u, hu, ht⟩ := Option.bind_eq_some_iff.mp h
  refine ⟨u, hu, ?_⟩
  simpa [Option.bind_eq_some_iff] using ht

/-- **The run rule.**  What holds at the start and is preserved by every step taken from a state
the run has reached holds of every state the run reaches. -/
theorem run_induction {L : LTS σ ε} {s₀ : σ} {P : List ε → σ → Prop} (h₀ : P [] s₀)
    (hstep : ∀ es s e s', L.run s₀ es = some s → P es s → L.step s e = some s' →
      P (es ++ [e]) s') :
    ∀ es s, L.run s₀ es = some s → P es s := by
  intro es
  induction es using List.reverseRecOn with
  | nil =>
      intro s h
      rw [run_nil, Option.some.injEq] at h
      exact h ▸ h₀
  | append_singleton es e ih =>
      intro s h
      obtain ⟨u, hu, hs⟩ := run_snoc h
      exact hstep es u e s hu (ih u hu) hs

/-- The run rule for a fact about states only. -/
theorem run_invariant {L : LTS σ ε} {s₀ : σ} {P : σ → Prop} (h₀ : P s₀)
    (hstep : ∀ s e s', P s → L.step s e = some s' → P s') {es : List ε} {s : σ}
    (h : L.run s₀ es = some s) : P s :=
  run_induction (P := fun _ s => P s) h₀ (fun _ s e s' _ hp hs => hstep s e s' hp hs) es s h

/-! ## What happens later -/

/-- A run leads from `s` to `t`. -/
def Reaches (L : LTS σ ε) (s t : σ) : Prop := ∃ es, L.run s es = some t

lemma Reaches.refl (L : LTS σ ε) (s : σ) : L.Reaches s s := ⟨[], rfl⟩

lemma Reaches.trans {L : LTS σ ε} {s t u : σ} (hst : L.Reaches s t) (htu : L.Reaches t u) :
    L.Reaches s u := by
  obtain ⟨es, hes⟩ := hst
  obtain ⟨fs, hfs⟩ := htu
  refine ⟨es ++ fs, ?_⟩
  rw [run_append, hes]
  exact hfs

lemma reaches_of_step {L : LTS σ ε} {s t : σ} {e : ε} (h : L.step s e = some t) :
    L.Reaches s t := by
  refine ⟨[e], ?_⟩
  rw [run_cons, h]
  rfl

/-! ## Runs whose steps all meet a condition -/

/-- The system that takes only the steps meeting `C`. -/
def restrict (L : LTS σ ε) (C : σ → ε → Prop) [∀ s e, Decidable (C s e)] : LTS σ ε where
  step s e := if C s e then L.step s e else none

lemma restrict_step {L : LTS σ ε} {C : σ → ε → Prop} [∀ s e, Decidable (C s e)] {s s' : σ}
    {e : ε} : (L.restrict C).step s e = some s' ↔ C s e ∧ L.step s e = some s' := by
  simp only [restrict]
  split_ifs with h <;> simp [h]

/-- A restricted run is a run. -/
lemma run_of_restrict {L : LTS σ ε} {C : σ → ε → Prop} [∀ s e, Decidable (C s e)] {s₀ : σ} :
    ∀ es s, (L.restrict C).run s₀ es = some s → L.run s₀ es = some s := by
  refine run_induction (P := fun es s => L.run s₀ es = some s) rfl ?_
  intro es s e s' _ hrun hs
  rw [run_append, hrun]
  simpa using (restrict_step.mp hs).2

/-- A run stays within `D` when every step that meets `C` in a `C`-restricted run meets `D`. -/
lemma restrict_mono {L : LTS σ ε} {C D : σ → ε → Prop} [∀ s e, Decidable (C s e)]
    [∀ s e, Decidable (D s e)] {s₀ : σ}
    (hCD : ∀ es s e s', (L.restrict C).run s₀ es = some s → C s e → L.step s e = some s' → D s e) :
    ∀ es s, (L.restrict C).run s₀ es = some s → (L.restrict D).run s₀ es = some s := by
  refine run_induction (P := fun es s => (L.restrict D).run s₀ es = some s) rfl ?_
  intro es s e s' hrun ih hs
  obtain ⟨hC, hstep⟩ := restrict_step.mp hs
  rw [run_append, ih]
  simpa using restrict_step.mpr ⟨hCD es s e s' hrun hC hstep, hstep⟩

/-! ## Counting steps -/

/-- How many of the steps of a run meet `C`. -/
def countSteps (L : LTS σ ε) (C : σ → ε → Bool) : σ → List ε → Nat
  | _, [] => 0
  | s, e :: es => (C s e).toNat + (L.step s e).elim 0 fun s' => countSteps L C s' es

/-- A number that every step leaves alone, except those that meet `C` and increment it. -/
theorem run_counts {L : LTS σ ε} {C : σ → ε → Bool} {μ : σ → Nat}
    (hstep : ∀ s e s', L.step s e = some s' → μ s' = μ s + (C s e).toNat) :
    ∀ es s t, L.run s es = some t → μ t = μ s + L.countSteps C s es := by
  intro es
  induction es with
  | nil =>
      intro s t h
      rw [run_nil, Option.some.injEq] at h
      rw [h]
      rfl
  | cons e es ih =>
      intro s t h
      rw [run_cons] at h
      obtain ⟨u, hu, ht⟩ := Option.bind_eq_some_iff.mp h
      have hrest := ih u t ht
      have hfirst := hstep s e u hu
      simp only [countSteps, hu, Option.elim_some]
      omega

/-! ## Runs that end -/

/-- **The rule for lengths.**  Every step uses up some of what is left, up to what it is paid. -/
theorem run_length_le {L : LTS σ ε} {left paid : σ → Nat}
    (hstep : ∀ s e s', L.step s e = some s' → left s' + 1 + paid s ≤ left s + paid s') :
    ∀ es s t, L.run s es = some t → es.length + left t + paid s ≤ left s + paid t := by
  intro es
  induction es with
  | nil =>
      intro s t h
      rw [run_nil, Option.some.injEq] at h
      rw [h, List.length_nil]
      omega
  | cons e es ih =>
      intro s t h
      rw [run_cons] at h
      obtain ⟨u, hu, ht⟩ := Option.bind_eq_some_iff.mp h
      have hrest := ih u t ht
      have hfirst := hstep s e u hu
      rw [List.length_cons]
      omega

/-- Where every state that is not done has a step of a kind that brings it closer to the end, there
is a run of such steps to the end.  `P` is an invariant. -/
theorem exists_run_ending {L : LTS σ ε} {P done : σ → Prop} {C : ε → Prop} {left : σ → Nat}
    (hP : ∀ s e s', P s → L.step s e = some s' → P s')
    (hprogress : ∀ s, P s → ¬ done s → ∃ e s', C e ∧ L.step s e = some s' ∧ left s' < left s) :
    ∀ (n : Nat) (s : σ), left s ≤ n → P s →
      ∃ es t, (∀ e ∈ es, C e) ∧ L.run s es = some t ∧ done t := by
  intro n
  induction n with
  | zero =>
      intro s hleft hs
      by_cases hdone : done s
      · exact ⟨[], s, by simp, rfl, hdone⟩
      · obtain ⟨e, s', -, -, hlt⟩ := hprogress s hs hdone
        omega
  | succ n ih =>
      intro s hleft hs
      by_cases hdone : done s
      · exact ⟨[], s, by simp, rfl, hdone⟩
      · obtain ⟨e, s', he, hstep, hlt⟩ := hprogress s hs hdone
        obtain ⟨es, t, hes, ht, hend⟩ := ih s' (by omega) (hP s e s' hs hstep)
        refine ⟨e :: es, t, List.forall_mem_cons.mpr ⟨he, hes⟩, ?_, hend⟩
        rw [run_cons, hstep]
        exact ht

/-! ## Logs -/

/-- Accumulate what every step emits: the state becomes (state, everything emitted so far). -/
def logged (step : σ → ε → Option (σ × List ω)) : LTS (σ × List ω) ε where
  step s e := (step s.1 e).map fun r => (r.1, s.2 ++ r.2)

lemma logged_step {step : σ → ε → Option (σ × List ω)} {s t : σ × List ω} {e : ε} :
    (logged step).step s e = some t ↔
      ∃ o, step s.1 e = some (t.1, o) ∧ t.2 = s.2 ++ o := by
  simp only [logged, Option.map_eq_some_iff]
  constructor
  · rintro ⟨⟨s', o⟩, h, rfl⟩
    exact ⟨o, h, rfl⟩
  · rintro ⟨o, h, hlog⟩
    exact ⟨(t.1, o), h, by rw [← hlog]⟩

end LTS

end HttpServer
