import HttpServerCpp.Core.Transition

/-!
# Values collected while a system runs

A call reads one location after another and returns what it has read; between two loads the system
may take any number of steps, so the value returned need not be that of any state.  This file adds
such a caller to a transition system and says what its values are worth.

* `LTS.collect` is the system with a caller that makes one call after another.
* `run_collect` is the rule: every value returned is `collected` at *moments* of the run, one for
  each load and in the order of the loads, and a later call has later moments.
* `get_collected` reads one component of such a value.

So what relates two components of a value is shown at a moment and carried to a later one.
-/

namespace HttpServer

/-- A system and a caller: the loads the call has still to make, the value collected so far, and
the values returned by earlier calls. -/
structure Collecting (σ ι V : Type) where
  state : σ
  pending : List ι
  value : V
  returned : List V

namespace LTS

variable {σ ε ι V : Type} (L : LTS σ ε) (load : σ → V → ι → V) (loads : List ι) (blank : V)

/-- The system with its caller; the event `none` is the caller's next load, or its return. -/
def collect : LTS (Collecting σ ι V) (Option ε) where
  step t e :=
    match e, t.pending with
    | some e, _ => (L.step t.state e).map fun s => { t with state := s }
    | none, c :: rest => some { t with pending := rest, value := load t.state t.value c }
    | none, [] =>
        some { t with pending := loads, value := blank, returned := t.returned ++ [t.value] }

/-- The caller at the beginning of its first call. -/
def collectFrom (s : σ) : Collecting σ ι V := ⟨s, loads, blank, []⟩

/-- What loads made in the given states collect. -/
def collected (moments : List (σ × ι)) : V := moments.foldl (fun v m => load m.1 v m.2) blank

lemma collected_snoc (moments : List (σ × ι)) (m : σ × ι) :
    collected load blank (moments ++ [m]) = load m.1 (collected load blank moments) m.2 := by
  simp [collected]

/-! ## Moments -/

/-- The moments of the calls that have returned and of the one that has not. -/
structure Collects (s₀ : σ) (t : Collecting σ ι V) (calls : List (List (σ × ι)))
    (current : List (σ × ι)) : Prop where
  returned : t.returned = calls.map (collected load blank)
  complete : ∀ call ∈ calls, call.map Prod.snd = loads
  value : t.value = collected load blank current
  pending : current.map Prod.snd ++ t.pending = loads
  reached : L.Reaches s₀ t.state
  past : ∀ m ∈ calls.flatten ++ current, L.Reaches s₀ m.1 ∧ L.Reaches m.1 t.state
  ordered : (calls.flatten ++ current).Pairwise fun m m' => L.Reaches m.1 m'.1

variable {L load loads blank} {s₀ : σ} {t t' : Collecting σ ι V} {calls : List (List (σ × ι))}
  {current : List (σ × ι)}

/-- A step of the system moves the present on. -/
lemma Collects.advance (h : L.Collects load loads blank s₀ t calls current) {s : σ}
    (hs : L.Reaches t.state s) :
    L.Collects load loads blank s₀ { t with state := s } calls current := by
  refine ⟨h.returned, h.complete, h.value, h.pending, h.reached.trans hs, ?_, h.ordered⟩
  intro m hm
  exact ⟨(h.past m hm).1, (h.past m hm).2.trans hs⟩

/-- A load is made at the present moment. -/
lemma Collects.take_load (h : L.Collects load loads blank s₀ t calls current) {c : ι} {rest : List ι}
    (hpending : t.pending = c :: rest) :
    L.Collects load loads blank s₀
      { t with pending := rest, value := load t.state t.value c } calls
      (current ++ [(t.state, c)]) := by
  have hnow : L.Reaches t.state t.state := Reaches.refl L t.state
  refine ⟨h.returned, h.complete, ?_, ?_, h.reached, ?_, ?_⟩
  · rw [collected_snoc, ← h.value]
  · rw [List.map_append, List.append_assoc, ← h.pending, hpending]
    rfl
  · intro m hm
    rw [← List.append_assoc] at hm
    rcases List.mem_append.mp hm with hm | hm
    · exact h.past m hm
    · obtain rfl := List.mem_singleton.mp hm
      exact ⟨h.reached, hnow⟩
  · rw [← List.append_assoc, List.pairwise_append]
    refine ⟨h.ordered, List.pairwise_singleton _ _, ?_⟩
    intro m hm m' hm'
    obtain rfl := List.mem_singleton.mp hm'
    exact (h.past m hm).2

/-- A call returns and the next one begins. -/
lemma Collects.finish_call (h : L.Collects load loads blank s₀ t calls current)
    (hpending : t.pending = []) :
    L.Collects load loads blank s₀
      { t with pending := loads, value := blank, returned := t.returned ++ [t.value] }
      (calls ++ [current]) [] := by
  have hmoments : (calls ++ [current]).flatten ++ [] = calls.flatten ++ current := by simp
  refine ⟨?_, ?_, rfl, rfl, h.reached, ?_, ?_⟩
  · rw [List.map_append, ← h.returned, h.value]
    rfl
  · intro call hcall
    rcases List.mem_append.mp hcall with hcall | hcall
    · exact h.complete call hcall
    · obtain rfl := List.mem_singleton.mp hcall
      rw [← h.pending, hpending, List.append_nil]
  · rw [hmoments]
    exact h.past
  · rw [hmoments]
    exact h.ordered

lemma Collects.step (h : L.Collects load loads blank s₀ t calls current) {e : Option ε}
    (hstep : (L.collect load loads blank).step t e = some t') :
    ∃ calls' current', L.Collects load loads blank s₀ t' calls' current' := by
  cases e with
  | some e =>
      obtain ⟨s, hs, rfl⟩ := Option.map_eq_some_iff.mp hstep
      exact ⟨calls, current, h.advance (reaches_of_step hs)⟩
  | none =>
      cases hpending : t.pending with
      | cons c rest =>
          simp only [collect, hpending, Option.some.injEq] at hstep
          obtain rfl := hstep
          exact ⟨calls, _, h.take_load hpending⟩
      | nil =>
          simp only [collect, hpending, Option.some.injEq] at hstep
          obtain rfl := hstep
          exact ⟨_, [], h.finish_call hpending⟩

/-- **The rule for collected values.**  They are explained by moments of the run. -/
theorem run_collect :
    ∀ es t, (L.collect load loads blank).run (collectFrom loads blank s₀) es = some t →
      ∃ calls current, L.Collects load loads blank s₀ t calls current := by
  refine run_induction (P := fun _ t => ∃ calls current,
    L.Collects load loads blank s₀ t calls current) ?_ ?_
  · exact ⟨[], [], rfl, nofun, rfl, rfl, Reaches.refl L s₀, nofun, List.Pairwise.nil⟩
  · rintro es t e t' - ⟨calls, current, h⟩ hstep
    exact h.step hstep

/-- The moments of one call are in order. -/
lemma Collects.ordered_call (h : L.Collects load loads blank s₀ t calls current) :
    ∀ call ∈ calls, call.Pairwise fun m m' => L.Reaches m.1 m'.1 :=
  (List.pairwise_flatten.mp (List.pairwise_append.mp h.ordered).1).1

/-- An earlier call has earlier moments. -/
lemma Collects.ordered_calls (h : L.Collects load loads blank s₀ t calls current) :
    calls.Pairwise fun call call' => ∀ m ∈ call, ∀ m' ∈ call', L.Reaches m.1 m'.1 :=
  (List.pairwise_flatten.mp (List.pairwise_append.mp h.ordered).1).2

lemma Collects.reached_of_mem (h : L.Collects load loads blank s₀ t calls current)
    {call : List (σ × ι)} (hcall : call ∈ calls) {m : σ × ι} (hm : m ∈ call) :
    L.Reaches s₀ m.1 :=
  (h.past m (List.mem_append_left _ (List.mem_flatten_of_mem hcall hm))).1

/-! ## Components -/

section Components

variable {W : Type} (get : V → ι → W) (read : σ → ι → W)
  (hself : ∀ s v c, get (load s v c) c = read s c)
  (hother : ∀ s v c c', c' ≠ c → get (load s v c) c' = get v c')
include hself hother

/-- A component has the value it had when it was loaded, if it was loaded once. -/
lemma get_collected {moments : List (σ × ι)} (hnodup : (moments.map Prod.snd).Nodup)
    {m : σ × ι} (hm : m ∈ moments) : get (collected load blank moments) m.2 = read m.1 m.2 := by
  induction moments using List.reverseRecOn with
  | nil => cases hm
  | append_singleton moments last ih =>
      rw [List.map_append, List.nodup_append] at hnodup
      obtain ⟨hnodup, -, hlast⟩ := hnodup
      rw [collected_snoc]
      rcases List.mem_append.mp hm with hm | hm
      · rw [hother _ _ _ _ (hlast _ (List.mem_map_of_mem hm) _ (List.mem_singleton.mpr rfl)),
          ih hnodup hm]
      · obtain rfl := List.mem_singleton.mp hm
        exact hself _ _ _

end Components

end LTS

end HttpServer
