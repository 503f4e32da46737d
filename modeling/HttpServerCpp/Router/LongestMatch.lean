import HttpServerCpp.Router.Registrations

/-!
# Longest-match routing

The header of the server promises that the longest registered path matching a request is used.
The tree keeps that promise except where the walk for a query ends on a node that has no data of
its own, being there only because a deeper path runs through it, while a shorter registered path
does match: `search` then answers with that node's null pointer.

* `LongestMatch` is the promise, on the list of registrations.
* `NoGap` is the condition on the registrations and the query under which the node where the walk
  ends is not such a gap; `longestMatch_iff` says that it is exact.
-/

namespace HttpServer

variable {T : Type}

/-- Registered under a key with at least one segment that is a prefix of the query's key. -/
def Matches (regs : List (List String × T)) (q m : List String) : Prop :=
  m <+: pathKey q ∧ m ≠ [] ∧ Registered regs m

/-- What longest-match routing answers to a query with segments `q`: the latest data under the
longest matching key; with no matching key, the root's data for the query without segments and
nothing for any other. -/
structure LongestMatch (regs : List (List String × T)) (q : List String) (result : Option T) :
    Prop where
  matched : ∀ m, IsLongestPrefix (fun m => m ≠ [] ∧ Registered regs m) (pathKey q) m →
    result = latest regs m
  unmatched : (¬ ∃ m, Matches regs q m) → result = if q = [] then latest regs [] else none

/-- The walk for `q` ends on a registered key, or no registered key matches `q` at all. -/
def NoGap (regs : List (List String × T)) (q : List String) : Prop :=
  ∀ m, StopsAt regs q m → (m ≠ [] ∧ Registered regs m) ∨ ¬ ∃ k, Matches regs q k

/-- A matching key is never longer than the prefix where the walk ends. -/
lemma StopsAt.length_le {regs : List (List String × T)} {q m k : List String}
    (hm : StopsAt regs q m) (hk : Matches regs q k) : k.length ≤ m.length :=
  hm.longest k hk.1 (Or.inr hk.2.2.onPath)

lemma no_match_nil (regs : List (List String × T)) : ¬ ∃ m, Matches regs [] m := by
  rintro ⟨m, hm, hne, -⟩
  exact hne (List.prefix_nil.mp hm)

/-- **When the tree keeps the promise.** -/
theorem longestMatch_iff {r : HttpRouter T} {regs : List (List String × T)}
    (hr : Represents r regs) (q : List String) :
    LongestMatch regs q (r.searchSegments q) ↔ NoGap regs q := by
  obtain ⟨m, hm⟩ := exists_stopsAt regs q
  rw [searchSegments_eq hr hm]
  by_cases hq : q = []
  · subst hq
    rw [if_pos rfl]
    refine ⟨fun _ _ _ => Or.inr (no_match_nil regs), fun _ => ⟨fun k hk => ?_, fun _ => rfl⟩⟩
    exact absurd ⟨k, hk.isPrefix, hk.holds⟩ (no_match_nil regs)
  · rw [if_neg hq]
    by_cases hmatch : ∃ k, Matches regs q k
    · constructor
      · -- the promised data exists, so the node where the walk ends must carry it
        intro h m' hm'
        obtain rfl := hm.unique hm'
        obtain ⟨L, hL⟩ := exists_isLongestPrefix
          (p := fun m => m ≠ [] ∧ Registered regs m) (q := pathKey q) hmatch
        have hdata : (latest regs L).isSome := latest_isSome.mpr hL.holds.2
        rw [← h.matched L hL] at hdata
        left
        split_ifs at hdata with hnil
        · simp at hdata
        · exact ⟨hnil, latest_isSome.mp hdata⟩
      · intro hgap
        obtain hreg | hnone := hgap m hm
        · refine ⟨fun L hL => ?_, fun h => absurd hmatch h⟩
          have hlongest : IsLongestPrefix (fun m => m ≠ [] ∧ Registered regs m) (pathKey q) m :=
            ⟨hm.isPrefix, hreg, fun k hk hk' => hm.length_le ⟨hk, hk'⟩⟩
          rw [if_neg hreg.1, hlongest.unique hL]
        · exact absurd hmatch hnone
    · -- nothing matches: a node off the root is unregistered, so its data is null
      refine ⟨fun _ _ _ => Or.inr hmatch, fun _ => ⟨fun L hL => ?_, fun _ => ?_⟩⟩
      · exact absurd ⟨L, hL.isPrefix, hL.holds⟩ hmatch
      · rw [if_neg hq]
        split_ifs with hnil
        · rfl
        · exact latest_eq_none.mpr fun hreg => hmatch ⟨m, hm.isPrefix, hnil, hreg⟩

/-- Finding nothing is the promised answer exactly when nothing is promised. -/
lemma longestMatch_none_iff {regs : List (List String × T)} {q : List String} :
    LongestMatch regs q none ↔ (¬ ∃ k, Matches regs q k) ∧ (q = [] → ¬ Registered regs []) := by
  constructor
  · intro h
    have hmatch : ¬ ∃ k, Matches regs q k := by
      intro hmatch
      obtain ⟨L, hL⟩ := exists_isLongestPrefix
        (p := fun m => m ≠ [] ∧ Registered regs m) (q := pathKey q) hmatch
      exact latest_eq_none.mp (h.matched L hL).symm hL.holds.2
    refine ⟨hmatch, fun hq => latest_eq_none.mp ?_⟩
    have := h.unmatched hmatch
    rw [if_pos hq] at this
    exact this.symm
  · rintro ⟨hmatch, hroot⟩
    refine ⟨fun L hL => absurd ⟨L, hL.isPrefix, hL.holds⟩ hmatch, fun _ => ?_⟩
    split_ifs with hq
    · exact (latest_eq_none.mpr (hroot hq)).symm
    · rfl

/-- **Longest-match routing, both overloads.**  After any accepted insertions into an empty
router the answer to a query is the promised one exactly when the query meets no gap.  The string
overload finds nothing on a path that is not empty and does not start with `/`, so there the
promise is kept exactly when nothing is promised. -/
theorem search_longestMatch_iff (segmentsView : String → Except String (List String))
    (hempty : segmentsView "" = .ok []) (calls : List (String × T)) (r : HttpRouter T)
    (hcalls : HttpRouter.empty.insertAll segmentsView calls = .ok r) :
    (∀ q, LongestMatch (calls.map (registration segmentsView)) q (r.searchSegments q) ↔
      NoGap (calls.map (registration segmentsView)) q) ∧
    ∀ path q, segmentsView path = .ok q →
      ((∃ result, r.search segmentsView path = .ok result ∧
          LongestMatch (calls.map (registration segmentsView)) q result) ↔
        if path = "" ∨ path.toList.head? = some '/' then
          NoGap (calls.map (registration segmentsView)) q
        else (¬ ∃ k, Matches (calls.map (registration segmentsView)) q k) ∧
          (q = [] → ¬ Registered (calls.map (registration segmentsView)) [])) := by
  have hr : Represents r (calls.map (registration segmentsView)) := by
    simpa using represents_insertAll calls _ r [] represents_empty hcalls
  refine ⟨longestMatch_iff hr, fun path q hview => ?_⟩
  rw [search_eq hview hempty]
  simp only [Except.ok.injEq, exists_eq_left']
  split_ifs
  · exact longestMatch_iff hr q
  · exact longestMatch_none_iff

/-- `/hello` and `/hello/test`, asked for a path below both. -/
theorem search_longestMatch_iff_hello :
    ∃ r, HttpRouter.empty.insertAll plainSegments [("/hello", 1), ("/hello/test", 2)] = .ok r ∧
      (LongestMatch ([("/hello", 1), ("/hello/test", 2)].map (registration plainSegments))
          ["hello", "test", "abc"] (r.searchSegments ["hello", "test", "abc"]) ↔
        NoGap ([("/hello", 1), ("/hello/test", 2)].map (registration plainSegments))
          ["hello", "test", "abc"]) :=
  ⟨_, rfl, (search_longestMatch_iff plainSegments rfl [("/hello", 1), ("/hello/test", 2)] _ rfl).1 _⟩

/-- `/hello` answers `/hello/test` until `/hello/test/abc` is registered as well; from then on
both overloads answer with a null pointer. -/
theorem search_gap :
    ∃ r, HttpRouter.empty.insertAll plainSegments [("/hello", 1), ("/hello/test/abc", 2)] = .ok r ∧
      r.searchSegments ["hello", "test"] = none ∧
      r.search plainSegments "/hello/test" = .ok none ∧
      ¬ LongestMatch ([("/hello", 1), ("/hello/test/abc", 2)].map (registration plainSegments))
        ["hello", "test"] none := by
  refine ⟨_, rfl, rfl, rfl, fun h => ?_⟩
  refine (longestMatch_none_iff.mp h).1 ⟨["hello"], ?_, by simp, ?_⟩
  · decide
  · exact ⟨(["hello"], 1), by decide, rfl⟩

end HttpServer
