import Mathlib.Data.List.Infix
import Mathlib.Data.List.Induction

/-!
# Longest prefixes and keyed registrations

Two general notions that a prefix router rests on, over an arbitrary alphabet `κ` of key symbols
and arbitrary values.

* `IsLongestPrefix p q m` says that `m` is the longest prefix of `q` satisfying `p`.  It is unique
  (`IsLongestPrefix.unique`), exists as soon as some prefix satisfies `p`
  (`exists_isLongestPrefix`), and is found symbol by symbol when the walk can follow the first
  symbol (`isLongestPrefix_cons`).  `longestPrefix?` computes it.
* A list of registrations `(key, value)`, oldest first, is a map in which the last registration
  under a key wins: `latest`.  `OnPath regs m` says that some registered key runs through `m`.
-/

namespace HttpServer

variable {κ α : Type}

/-! ## The longest prefix with a property -/

/-- `m` is the longest prefix of `q` that satisfies `p`. -/
structure IsLongestPrefix (p : List κ → Prop) (q m : List κ) : Prop where
  isPrefix : m <+: q
  holds : p m
  longest : ∀ m', m' <+: q → p m' → m'.length ≤ m.length

lemma IsLongestPrefix.unique {p : List κ → Prop} {q m m' : List κ}
    (h : IsLongestPrefix p q m) (h' : IsLongestPrefix p q m') : m = m' := by
  have hle : m.length ≤ m'.length := h'.longest m h.isPrefix h.holds
  have hge : m'.length ≤ m.length := h.longest m' h'.isPrefix h'.holds
  exact (List.prefix_of_prefix_length_le h.isPrefix h'.isPrefix hle).eq_of_length
    (le_antisymm hle hge)

/-- A longest prefix with `p` exists whenever some prefix has `p`. -/
lemma exists_isLongestPrefix {p : List κ → Prop} {q : List κ} (h : ∃ m, m <+: q ∧ p m) :
    ∃ m, IsLongestPrefix p q m := by
  induction q using List.reverseRecOn with
  | nil =>
      obtain ⟨m, hm, hp⟩ := h
      refine ⟨m, hm, hp, fun m' hm' _ => ?_⟩
      simp [List.prefix_nil.mp hm']
  | append_singleton q a ih =>
      by_cases ha : p (q ++ [a])
      · exact ⟨q ++ [a], List.prefix_refl _, ha, fun m' hm' _ => hm'.length_le⟩
      · -- the whole of `q ++ [a]` is excluded, so every candidate is a prefix of `q`
        have shorter : ∀ m, m <+: q ++ [a] → p m → m <+: q := by
          intro m hm hp
          rcases List.prefix_concat_iff.mp hm with rfl | hm
          · exact absurd hp ha
          · exact hm
        obtain ⟨m, hm, hp⟩ := h
        obtain ⟨m₀, h₀⟩ := ih ⟨m, shorter m hm hp, hp⟩
        exact ⟨m₀, h₀.isPrefix.trans (List.prefix_append _ _), h₀.holds,
          fun m' hm' hp' => h₀.longest m' (shorter m' hm' hp') hp'⟩

/-- Only the prefixes of `q` matter. -/
lemma IsLongestPrefix.congr {p p' : List κ → Prop} {q m : List κ}
    (hpp : ∀ m, m <+: q → (p m ↔ p' m)) (h : IsLongestPrefix p q m) : IsLongestPrefix p' q m :=
  ⟨h.isPrefix, (hpp m h.isPrefix).mp h.holds,
    fun m' hm' hp' => h.longest m' hm' ((hpp m' hm').mpr hp')⟩

/-- The walk takes a step: the longest prefix below the first symbol, with that symbol put back. -/
lemma isLongestPrefix_cons {p : List κ → Prop} {a : κ} {q m : List κ}
    (h : IsLongestPrefix (fun m => p (a :: m)) q m) : IsLongestPrefix p (a :: q) (a :: m) := by
  refine ⟨(List.prefix_cons_inj a).mpr h.isPrefix, h.holds, fun m' hm' hp' => ?_⟩
  cases m' with
  | nil => simp
  | cons b m' =>
      obtain ⟨rfl, htail⟩ := List.cons_prefix_cons.mp hm'
      simpa using h.longest m' htail hp'

/-- The walk is stuck: nothing below the first symbol satisfies `p`. -/
lemma isLongestPrefix_nil {p : List κ → Prop} {q : List κ} (h₀ : p [])
    (hstuck : ∀ a m, a :: m <+: q → ¬ p (a :: m)) : IsLongestPrefix p q [] := by
  refine ⟨List.nil_prefix, h₀, fun m' hm' hp' => ?_⟩
  cases m' with
  | nil => simp
  | cons a m => exact absurd hp' (hstuck a m hm')

/-- The longest prefix of `q` with `p`, if there is one. -/
def longestPrefix? : (p : List κ → Prop) → [DecidablePred p] → (q : List κ) → Option (List κ)
  | p, _, [] => if p [] then some [] else none
  | p, _, a :: q =>
      match longestPrefix? (fun m => p (a :: m)) q with
      | some m => some (a :: m)
      | none => if p [] then some [] else none

/-- **The computation is right**: it finds the longest prefix, or there is none. -/
lemma longestPrefix?_spec : ∀ (q : List κ) (p : List κ → Prop) [DecidablePred p],
    (∃ m, longestPrefix? p q = some m ∧ IsLongestPrefix p q m) ∨
      longestPrefix? p q = none ∧ ∀ m, m <+: q → ¬ p m := by
  intro q
  induction q with
  | nil =>
      intro p _
      by_cases h₀ : p []
      · refine Or.inl ⟨[], by simp [longestPrefix?, h₀], isLongestPrefix_nil h₀ ?_⟩
        intro a m hm
        simp at hm
      · refine Or.inr ⟨by simp [longestPrefix?, h₀], ?_⟩
        intro m hm
        rwa [List.prefix_nil.mp hm]
  | cons a q ih =>
      intro p _
      rcases ih (fun m => p (a :: m)) with ⟨m, hm, hlongest⟩ | ⟨hnone, hall⟩
      · exact Or.inl ⟨a :: m, by simp [longestPrefix?, hm], isLongestPrefix_cons hlongest⟩
      · have hstuck : ∀ b m, b :: m <+: a :: q → ¬ p (b :: m) := by
          intro b m hm
          obtain ⟨rfl, htail⟩ := List.cons_prefix_cons.mp hm
          exact hall m htail
        by_cases h₀ : p []
        · exact Or.inl ⟨[], by simp [longestPrefix?, hnone, h₀], isLongestPrefix_nil h₀ hstuck⟩
        · refine Or.inr ⟨by simp [longestPrefix?, hnone, h₀], ?_⟩
          rintro (_ | ⟨b, m⟩) hm
          · exact h₀
          · exact hstuck b m hm

/-! ## Registrations under keys -/

section Registrations

variable [DecidableEq κ]

/-- The value registered last under `k`. -/
def latest (regs : List (List κ × α)) (k : List κ) : Option α :=
  ((regs.filter (fun r => r.1 = k)).getLast?).map Prod.snd

@[simp] lemma latest_nil (k : List κ) : latest ([] : List (List κ × α)) k = none := rfl

/-- A further registration overwrites its own key and no other. -/
lemma latest_snoc (regs : List (List κ × α)) (r : List κ × α) (k : List κ) :
    latest (regs ++ [r]) k = if k = r.1 then some r.2 else latest regs k := by
  simp only [latest, List.filter_append]
  by_cases h : r.1 = k
  · simp [h]
  · rw [if_neg (Ne.symm h)]
    simp [h]

/-- Something is registered under `k`. -/
def Registered (regs : List (List κ × α)) (k : List κ) : Prop := ∃ r ∈ regs, r.1 = k

/-- Some registered key runs through `m`. -/
def OnPath (regs : List (List κ × α)) (m : List κ) : Prop := ∃ r ∈ regs, m <+: r.1

instance (regs : List (List κ × α)) : DecidablePred (OnPath regs) := fun m =>
  inferInstanceAs (Decidable (∃ r ∈ regs, m <+: r.1))

omit [DecidableEq κ] in
lemma Registered.onPath {regs : List (List κ × α)} {k : List κ} (h : Registered regs k) :
    OnPath regs k := by
  obtain ⟨r, hr, rfl⟩ := h
  exact ⟨r, hr, List.prefix_refl _⟩

omit [DecidableEq κ] in
lemma onPath_snoc (regs : List (List κ × α)) (r : List κ × α) (m : List κ) :
    OnPath (regs ++ [r]) m ↔ OnPath regs m ∨ m <+: r.1 := by
  simp [OnPath, or_and_right, exists_or]

/-- A key has a value exactly when it is registered. -/
lemma latest_isSome {regs : List (List κ × α)} {k : List κ} :
    (latest regs k).isSome ↔ Registered regs k := by
  simp [latest, Registered]

lemma latest_eq_none {regs : List (List κ × α)} {k : List κ} :
    latest regs k = none ↔ ¬ Registered regs k := by
  rw [← latest_isSome, Option.not_isSome_iff_eq_none]

end Registrations

end HttpServer
