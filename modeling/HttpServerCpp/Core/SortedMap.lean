import Mathlib.Data.List.Pairwise
import Mathlib.Data.List.Sigma
import Mathlib.Data.String.Basic

/-!
# Ordered maps

`SortedMap κ ν` is the ordered map of the C++ library (`std::map`): entries with strictly
increasing keys, in the order in which the map is iterated.  The order is a field, so every map
that can be built is sorted.  `assign` is `m[k] = v`.

* `mem_foldl_assign` says what a loop of assignments leaves: for each key the value of its last
  assignment.
* `getLast?_filter_eq_some`: of the entries that meet a condition, the last one in iteration
  order is the one with the greatest key.
-/

namespace HttpServer

/-- Entries with strictly increasing keys. -/
structure SortedMap (κ ν : Type) [LinearOrder κ] where
  entries : List (κ × ν)
  sorted : entries.Pairwise (fun a b => a.1 < b.1)

namespace SortedMap

variable {κ ν : Type} [LinearOrder κ]

/-- The map without entries. -/
def empty : SortedMap κ ν := ⟨[], List.Pairwise.nil⟩

/-- `m[k] = v`: the entries before `k`, the new one, the entries after `k`. -/
def assign (m : SortedMap κ ν) (k : κ) (v : ν) : SortedMap κ ν where
  entries := m.entries.filter (·.1 < k) ++ (k, v) :: m.entries.filter (k < ·.1)
  sorted := by
    rw [List.pairwise_append, List.pairwise_cons]
    refine ⟨m.sorted.filter _, ⟨?_, m.sorted.filter _⟩, ?_⟩
    · intro b hb
      simpa using (List.mem_filter.mp hb).2
    · intro a ha b hb
      have hak : a.1 < k := by simpa using (List.mem_filter.mp ha).2
      rcases List.mem_cons.mp hb with rfl | hb
      · exact hak
      · have hkb : k < b.1 := by simpa using (List.mem_filter.mp hb).2
        exact lt_trans hak hkb

lemma mem_assign {m : SortedMap κ ν} {k : κ} {v : ν} {e : κ × ν} :
    e ∈ (m.assign k v).entries ↔ e = (k, v) ∨ e ∈ m.entries ∧ e.1 ≠ k := by
  simp only [assign, List.mem_append, List.mem_cons, List.mem_filter, decide_eq_true_eq]
  constructor
  · rintro (⟨hmem, hlt⟩ | rfl | ⟨hmem, hlt⟩)
    · exact Or.inr ⟨hmem, hlt.ne⟩
    · exact Or.inl rfl
    · exact Or.inr ⟨hmem, hlt.ne'⟩
  · rintro (rfl | ⟨hmem, hne⟩)
    · exact Or.inr (Or.inl rfl)
    · rcases hne.lt_or_gt with hlt | hlt
      · exact Or.inl ⟨hmem, hlt⟩
      · exact Or.inr (Or.inr ⟨hmem, hlt⟩)

lemma nodup_entries (m : SortedMap κ ν) : m.entries.Nodup :=
  m.sorted.imp fun hlt heq => hlt.ne (congrArg Prod.fst heq)

/-- The only entry. -/
lemma entries_eq_singleton {m : SortedMap κ ν} {e : κ × ν} (h : ∀ e', e' ∈ m.entries ↔ e' = e) :
    m.entries = [e] := by
  have hperm : m.entries.Perm [e] :=
    (List.perm_ext_iff_of_nodup m.nodup_entries (List.nodup_singleton e)).mpr (by simpa using h)
  exact List.perm_singleton.mp hperm

end SortedMap

/-! ## The last entry that meets a condition -/

lemma getLast?_filter_cons {α : Type} (p : α → Bool) (a : α) (l : List α) :
    ((a :: l).filter p).getLast? =
      (l.filter p).getLast?.or (if p a then some a else none) := by
  rw [List.filter_cons]
  by_cases h : p a = true
  · rw [if_pos h, if_pos h, List.getLast?_cons]
    cases (l.filter p).getLast? <;> rfl
  · rw [if_neg h, if_neg h, Option.or_none]

namespace SortedMap

variable {κ ν : Type} [LinearOrder κ]

/-- In a sorted list it is the one with the greatest key. -/
lemma getLast?_filter_eq_some {m : SortedMap κ ν} {p : κ × ν → Bool} {e : κ × ν} :
    (m.entries.filter p).getLast? = some e ↔
      e ∈ m.entries ∧ p e = true ∧ ∀ e' ∈ m.entries, p e' = true → e'.1 ≤ e.1 := by
  have hlast : ∀ {e : κ × ν}, (m.entries.filter p).getLast? = some e →
      e ∈ m.entries ∧ p e = true ∧ ∀ e' ∈ m.entries, p e' = true → e'.1 ≤ e.1 := by
    intro e h
    have hmem := List.mem_filter.mp (List.mem_of_getLast? h)
    refine ⟨hmem.1, hmem.2, fun e' he' hp => ?_⟩
    obtain ⟨front, hfront⟩ := List.getLast?_eq_some_iff.mp h
    have hsorted := m.sorted.filter p
    have he'front : e' ∈ front ++ [e] := hfront ▸ List.mem_filter.mpr ⟨he', hp⟩
    rw [hfront, List.pairwise_append] at hsorted
    rcases List.mem_append.mp he'front with hin | hin
    · exact (hsorted.2.2 e' hin e (by simp)).le
    · rw [List.mem_singleton.mp hin]
  refine ⟨hlast, fun ⟨hmem, hp, hgreatest⟩ => ?_⟩
  cases hfound : (m.entries.filter p).getLast? with
  | none =>
      rw [List.getLast?_eq_none_iff, List.filter_eq_nil_iff] at hfound
      exact absurd hp (hfound e hmem)
  | some e' =>
      obtain ⟨hmem', hp', hgreatest'⟩ := hlast hfound
      have hkey : e'.1 = e.1 := le_antisymm (hgreatest e' hmem' hp') (hgreatest' e hmem hp)
      by_contra hne
      have hdistinct : m.entries.Pairwise fun a b => a.1 ≠ b.1 := m.sorted.imp ne_of_lt
      have : Std.Symm fun a b : κ × ν => a.1 ≠ b.1 := ⟨fun _ _ h => h.symm⟩
      exact hdistinct.forall hmem' hmem (fun h => hne (congrArg some h)) hkey

end SortedMap

/-! ## A loop of assignments -/

section Assignments

variable {κ ν : Type} [LinearOrder κ]

/-- The value that the last assignment to a key gives it. -/
def lastAssigned (assignments : List (κ × ν)) (k : κ) : Option ν :=
  (assignments.filter fun a => a.1 = k).getLast?.map Prod.snd

lemma lastAssigned_cons (a : κ × ν) (assignments : List (κ × ν)) (k : κ) :
    lastAssigned (a :: assignments) k =
      (lastAssigned assignments k).or (if a.1 = k then some a.2 else none) := by
  rw [lastAssigned, getLast?_filter_cons, lastAssigned, Option.map_or]
  by_cases h : a.1 = k <;> simp [h]

lemma lastAssigned_isSome {assignments : List (κ × ν)} {k : κ} :
    (lastAssigned assignments k).isSome ↔ ∃ v, (k, v) ∈ assignments := by
  simp [lastAssigned]

/-- No later assignment is to the same key. -/
def Survives (assignments : List (κ × ν)) (a : κ × ν) : Prop :=
  ∃ before after, assignments = before ++ a :: after ∧ ∀ later ∈ after, later.1 ≠ a.1

lemma lastAssigned_eq_some {assignments : List (κ × ν)} {k : κ} {v : ν} :
    lastAssigned assignments k = some v ↔ Survives assignments (k, v) := by
  induction assignments with
  | nil => simp [lastAssigned, Survives]
  | cons a assignments ih =>
      rw [lastAssigned_cons]
      constructor
      · intro h
        rcases Option.or_eq_some_iff.mp h with hlater | ⟨hnone, ha⟩
        · obtain ⟨before, after, rfl, hafter⟩ := ih.mp hlater
          exact ⟨a :: before, after, rfl, hafter⟩
        · split_ifs at ha with hkey
          obtain rfl := Option.some.inj ha
          refine ⟨[], assignments, by simp [← hkey], ?_⟩
          rintro ⟨k', v'⟩ hmem rfl
          have hsome := lastAssigned_isSome.mpr ⟨v', hmem⟩
          simp [hnone] at hsome
      · rintro ⟨before, after, heq, hafter⟩
        rcases before with _ | ⟨b, before⟩
        · obtain ⟨rfl, rfl⟩ := List.cons.inj heq
          have hnone : lastAssigned assignments k = none := by
            rw [← Option.not_isSome_iff_eq_none, lastAssigned_isSome]
            rintro ⟨v', hmem⟩
            exact hafter (k, v') hmem rfl
          simp [hnone]
        · obtain ⟨rfl, rfl⟩ := List.cons.inj heq
          rw [ih.mpr ⟨before, after, rfl, hafter⟩, Option.some_or]

/-- Of the assignments to a key one survives. -/
lemma exists_survives_iff {assignments : List (κ × ν)} {k : κ} :
    (∃ v, Survives assignments (k, v)) ↔ ∃ v, (k, v) ∈ assignments := by
  rw [← lastAssigned_isSome, Option.isSome_iff_exists]
  exact exists_congr fun v => lastAssigned_eq_some.symm

/-- What the loop leaves. -/
lemma mem_foldl_assign (assignments : List (κ × ν)) : ∀ (m : SortedMap κ ν) (e : κ × ν),
    e ∈ (assignments.foldl (fun m a => m.assign a.1 a.2) m).entries ↔
      lastAssigned assignments e.1 = some e.2 ∨
        lastAssigned assignments e.1 = none ∧ e ∈ m.entries := by
  induction assignments with
  | nil =>
      intro m e
      simp [lastAssigned]
  | cons a assignments ih =>
      intro m e
      rw [List.foldl_cons, ih, SortedMap.mem_assign, lastAssigned_cons]
      cases hlast : lastAssigned assignments e.1 with
      | some v => simp
      | none =>
          by_cases h : a.1 = e.1
          · simp [h, Prod.ext_iff, eq_comm]
          · simp [h, Ne.symm h, Prod.ext_iff]

lemma mem_foldl_assign_empty {assignments : List (κ × ν)} {e : κ × ν} :
    e ∈ (assignments.foldl (fun m a => m.assign a.1 a.2) (.empty : SortedMap κ ν)).entries ↔
      Survives assignments e := by
  rw [mem_foldl_assign, ← lastAssigned_eq_some]
  simp [SortedMap.empty]

end Assignments

end HttpServer
