import HttpServerCpp.Router.Registrations

/-!
# Search on the plain list of registrations

`referenceSearch` answers a query from the list of registrations, without a tree: it takes the
longest prefix of the query's key that some registered key runs through, and what was registered
there last.

`search_eq_reference` says that the tree gives the same answers through both overloads, whatever
accepted calls built it.
-/

namespace HttpServer

variable {T : Type}

/-- What `search` answers to a query with segments `q` after the registrations `regs`. -/
def referenceSearch (regs : List (List String × T)) (q : List String) : Option T :=
  if q = [] then latest regs []
  else
    match longestPrefix? (OnPath regs) (pathKey q) with
    | none | some [] => none
    | some m => latest regs m

/-- The reference stops where the search loop stops. -/
lemma StopsAt.reference {regs : List (List String × T)} {q m : List String}
    (hm : StopsAt regs q m) :
    referenceSearch regs q =
      if q = [] then latest regs [] else if m = [] then none else latest regs m := by
  have hstop : longestPrefix? (OnPath regs) (pathKey q) = some m ∨
      longestPrefix? (OnPath regs) (pathKey q) = none ∧ m = [] := by
    rcases longestPrefix?_spec (pathKey q) (OnPath regs) with ⟨m', hm', hlongest⟩ | ⟨hnone, hall⟩
    · -- the root counts for the loop even when nothing is registered, and it is the shortest
      have hroot : IsLongestPrefix (fun m => m = [] ∨ OnPath regs m) (pathKey q) m' := by
        refine ⟨hlongest.isPrefix, Or.inr hlongest.holds, ?_⟩
        rintro k hk (rfl | hpath)
        · simp
        · exact hlongest.longest k hk hpath
      rw [hm.unique hroot]
      exact Or.inl hm'
    · rcases hm.holds with hnil | hpath
      · exact Or.inr ⟨hnone, hnil⟩
      · exact absurd hpath (hall m hm.isPrefix)
  unfold referenceSearch
  rcases hstop with hsome | ⟨hnone, rfl⟩
  · cases m <;> simp [hsome]
  · simp [hnone]

/-- **The segments overload computes the reference.** -/
lemma Represents.searchSegments_eq_reference {r : HttpRouter T} {regs : List (List String × T)}
    (hr : Represents r regs) (q : List String) :
    r.searchSegments q = referenceSearch regs q := by
  obtain ⟨m, hm⟩ := exists_stopsAt regs q
  rw [searchSegments_eq hr hm, hm.reference]

/-- On a path that is empty or starts with `/` the string overload asks the other one for the
path's segments, and throws what `segments_view` throws. -/
lemma search_eq_map {segmentsView : String → Except String (List String)} (r : HttpRouter T)
    {path : String} (hempty : segmentsView "" = .ok [])
    (hpath : path = "" ∨ path.toList.head? = some '/') :
    r.search segmentsView path = (segmentsView path).map r.searchSegments := by
  cases hview : segmentsView path with
  | ok segments =>
      rw [search_eq hview hempty, if_pos hpath]
      rfl
  | error err =>
      have hne : path ≠ "" := by
        rintro rfl
        simp [hempty] at hview
      have hslash : path.toList.head? = some '/' := hpath.resolve_left hne
      have hlen : path.length ≠ 0 := fun h => hne (String.length_eq_zero_iff.mp h)
      unfold HttpRouter.search
      rw [if_neg hlen, if_neg (not_not.mpr hslash), hview]
      rfl

/-- **The tree refines the list of registrations.**  After any accepted insertions into an empty
router both overloads compute the reference; on a path that is not empty and does not start with
`/` the string overload answers with a null pointer. -/
theorem search_eq_reference (segmentsView : String → Except String (List String))
    (hempty : segmentsView "" = .ok []) (calls : List (String × T)) (r : HttpRouter T)
    (hcalls : HttpRouter.empty.insertAll segmentsView calls = .ok r) :
    (∀ q, r.searchSegments q = referenceSearch (calls.map (registration segmentsView)) q) ∧
    (∀ path, path = "" ∨ path.toList.head? = some '/' →
      r.search segmentsView path = (segmentsView path).map r.searchSegments ∧
      r.search segmentsView path =
        (segmentsView path).map (referenceSearch (calls.map (registration segmentsView)))) ∧
    ∀ path, ¬ (path = "" ∨ path.toList.head? = some '/') → r.search segmentsView path = .ok none := by
  have hr : Represents r (calls.map (registration segmentsView)) := by
    simpa using represents_insertAll calls _ r [] represents_empty hcalls
  have hsegments : r.searchSegments = referenceSearch (calls.map (registration segmentsView)) := by
    funext q
    exact hr.searchSegments_eq_reference q
  refine ⟨fun q => congrFun hsegments q, fun path hpath => ?_, fun path hpath => ?_⟩
  · refine ⟨search_eq_map r hempty hpath, ?_⟩
    rw [← hsegments]
    exact search_eq_map r hempty hpath
  · rw [not_or] at hpath
    exact search_of_not_slash segmentsView r hpath.1 hpath.2

/-- The paths of the repository's own test, asked for one below the deepest of them. -/
theorem search_eq_reference_hello :
    ∃ r, HttpRouter.empty.insertAll plainSegments
        [("/", 1), ("/hello", 2), ("/hello/test", 3), ("/hello/test/abc/", 4)] = .ok r ∧
      r.searchSegments ["hello", "test", "abc", "def"] =
        referenceSearch ([("/", 1), ("/hello", 2), ("/hello/test", 3), ("/hello/test/abc/", 4)].map
          (registration plainSegments)) ["hello", "test", "abc", "def"] :=
  ⟨_, rfl, (search_eq_reference plainSegments rfl _ _ rfl).1 _⟩

end HttpServer
