import Mathlib.Data.List.DropRight
import HttpServerCpp.Router.Registrations

/-!
# What an insertion does to later searches

The two laws of a map, for a path that was inserted: searching it finds the data just inserted
(`insert_search_iff`), and inserting another path does not change what is found
(`search_kept_iff`).  Both fail for some accepted paths, in any tree.

* An empty first segment ends the walk of `insert` at the root, where it leaves the data, while
  `search` answers with a null pointer when the walk of such a path ends there.
* An empty segment further on ends the walk of `insert` at the node reached so far, so the data
  lands on the path in front of it.
-/

namespace HttpServer

variable {T : Type} {segmentsView : String → Except String (List String)}

/-! ## Searching a path that is in the tree -/

/-- The walk for a key that is a position of the tree ends there. -/
lemma HttpPathNode.descend_of_at {node : HttpPathNode T} {segments : List String}
    (h : (node.at (pathKey segments)).isSome) (followed : List String) :
    ∃ n, node.descend followed segments = (followed ++ pathKey segments, n) ∧
      node.at (pathKey segments) = some n := by
  obtain ⟨m, n, hdescend, hat, hlongest⟩ := HttpPathNode.descend_spec segments node followed
  have hwhole : IsLongestPrefix (fun m => (node.at m).isSome) (pathKey segments)
      (pathKey segments) := ⟨List.prefix_refl _, h, fun m' hm' _ => hm'.length_le⟩
  obtain rfl := hlongest.unique hwhole
  exact ⟨n, hdescend, hat⟩

lemma pathKey_eq_nil {segments : List String} :
    pathKey segments = [] ↔ segments = [] ∨ segments.head? = some "" := by
  rcases segments with _ | ⟨key, rest⟩
  · simp
  · by_cases hkey : key = ""
    · subst hkey
      simp [pathKey_cons_empty]
    · simp [pathKey_cons hkey, hkey]

/-- Where a path is in the tree, `search` reads its data, unless its first segment is empty. -/
lemma searchSegments_of_at {r : HttpRouter T} {segments : List String}
    (h : (r.root.at (pathKey segments)).isSome) :
    r.searchSegments segments =
      if segments.head? = some "" then none else r.root.dataAt (pathKey segments) := by
  obtain ⟨n, hdescend, hat⟩ := HttpPathNode.descend_of_at h []
  unfold HttpRouter.searchSegments
  rcases segments with _ | ⟨key, rest⟩
  · rfl
  · rw [if_neg (by simp), hdescend]
    have hroot : pathKey (key :: rest) = [] ↔ (key :: rest).head? = some "" := by
      simp [pathKey_eq_nil]
    simp [hroot, HttpPathNode.dataAt, hat]

/-! ## Put, then get -/

/-- An accepted path starts with `/`. -/
lemma insert_slash {r r' : HttpRouter T} {path : String} {data : Option T}
    (h : r.insert segmentsView path data = .ok r') : path.toList.head? = some '/' := by
  unfold HttpRouter.insert at h
  rcases data with _ | d
  · simp at h
  · by_contra hslash
    simp [hslash] at h

/-- What an accepted call leaves in the tree: the path is there, its data is the new one, and
every other position has the data it had. -/
lemma insert_spec {r r' : HttpRouter T} {path : String} {d : T} {segments : List String}
    (hview : segmentsView path = .ok segments)
    (h : r.insert segmentsView path (some d) = .ok r') :
    (∀ p, (r'.root.at p).isSome ↔ (r.root.at p).isSome ∨ p <+: pathKey segments) ∧
      ∀ p, r'.root.dataAt p = if p = pathKey segments then some d else r.root.dataAt p := by
  obtain ⟨d', segments', hd, hview', hroot⟩ := insert_ok h
  obtain rfl := Option.some.inj hd
  obtain rfl := Except.ok.inj (hview.symm.trans hview')
  rw [hroot]
  exact ⟨HttpPathNode.at_insert_isSome d segments r.root, HttpPathNode.dataAt_insert d segments r.root⟩

/-- **Put, then get.**  In any tree, an accepted path finds the data just inserted, through both
overloads, exactly when its first segment is not empty. -/
theorem insert_search_iff (segmentsView : String → Except String (List String))
    (r r' : HttpRouter T) (path : String) (d : T) (segments : List String)
    (hview : segmentsView path = .ok segments)
    (h : r.insert segmentsView path (some d) = .ok r') :
    (r'.search segmentsView path = .ok (some d) ∧ r'.searchSegments segments = some d) ↔
      segments.head? ≠ some "" := by
  obtain ⟨hpositions, hdata⟩ := insert_spec hview h
  have hat : (r'.root.at (pathKey segments)).isSome :=
    (hpositions _).mpr (Or.inr (List.prefix_refl _))
  rw [search_of_slash r' hview (insert_slash h), searchSegments_of_at hat, hdata, if_pos rfl]
  split_ifs with hfirst <;> simp [hfirst]

/-- `/hello` in the empty router. -/
theorem insert_search_iff_hello :
    ∃ r, HttpRouter.empty.insert plainSegments "/hello" (some 1) = .ok r ∧
      ((r.search plainSegments "/hello" = .ok (some 1) ∧ r.searchSegments ["hello"] = some 1) ↔
        ["hello"].head? ≠ some "") :=
  ⟨_, rfl, insert_search_iff plainSegments HttpRouter.empty _ "/hello" 1 ["hello"] rfl rfl⟩

/-- `//x` is accepted, and not found. -/
theorem insert_double_slash :
    ∃ r, HttpRouter.empty.insert plainSegments "//x" (some 1) = .ok r ∧
      r.search plainSegments "//x" = .ok none ∧ r.searchSegments ["", "x"] = none ∧
      r.search plainSegments "/" = .ok (some 1) :=
  ⟨_, rfl, rfl, rfl, rfl⟩

/-! ## Put another path -/

/-- Two paths that differ in slashes at the end only. -/
def SamePath (s s' : List String) : Prop := s.rdropWhile (· = "") = s'.rdropWhile (· = "")

/-- Positions of the tree stay. -/
lemma at_insertAll_isSome {p : List String} :
    ∀ (calls : List (String × T)) (r r' : HttpRouter T), r.insertAll segmentsView calls = .ok r' →
      (r.root.at p).isSome → (r'.root.at p).isSome := by
  intro calls
  induction calls with
  | nil =>
      intro r r' h hat
      exact Except.ok.inj h ▸ hat
  | cons call calls ih =>
      intro r r' h hat
      simp only [HttpRouter.insertAll, Bind.bind, Except.bind] at h
      cases hins : r.insert segmentsView call.1 (some call.2) with
      | error err => simp [hins] at h
      | ok r₁ =>
          rw [hins] at h
          obtain ⟨d, segments, -, hview, -⟩ := insert_ok hins
          exact ih r₁ r' h (((insert_spec hview hins).1 p).mpr (Or.inl hat))

/-- **Put another path.**  Take a path `p` that was inserted with `d`, at any later time at which
it finds `d`.  After a further accepted insertion of a path `q` that is not the same up to slashes
at the end, `p` still finds `d` through both overloads exactly when the walks of the two paths end
at different nodes, or the data is the same. -/
theorem search_kept_iff (segmentsView : String → Except String (List String))
    (r r₁ r₂ r₃ : HttpRouter T) (p q : String) (d e : T) (sp sq : List String)
    (calls : List (String × T)) (hp : segmentsView p = .ok sp) (hq : segmentsView q = .ok sq)
    (hinsert : r.insert segmentsView p (some d) = .ok r₁)
    (hcalls : r₁.insertAll segmentsView calls = .ok r₂)
    (hfound : r₂.search segmentsView p = .ok (some d))
    (hlater : r₂.insert segmentsView q (some e) = .ok r₃) :
    (¬ SamePath sq sp →
      r₃.search segmentsView p = .ok (some d) ∧ r₃.searchSegments sp = some d) ↔
    SamePath sq sp ∨ pathKey sq ≠ pathKey sp ∨ e = d := by
  have hslash : p.toList.head? = some '/' := insert_slash hinsert
  obtain ⟨hpositions₁, -⟩ := insert_spec hp hinsert
  have hat₂ : (r₂.root.at (pathKey sp)).isSome :=
    at_insertAll_isSome calls r₁ r₂ hcalls ((hpositions₁ _).mpr (Or.inr (List.prefix_refl _)))
  obtain ⟨hpositions₃, hdata₃⟩ := insert_spec hq hlater
  have hat₃ : (r₃.root.at (pathKey sp)).isSome := (hpositions₃ _).mpr (Or.inl hat₂)
  rw [search_of_slash r₂ hp hslash, searchSegments_of_at hat₂, Except.ok.injEq] at hfound
  split_ifs at hfound with hfirst
  rw [search_of_slash r₃ hp hslash, searchSegments_of_at hat₃, if_neg hfirst, hdata₃, hfound]
  by_cases hkey : pathKey sp = pathKey sq
  · rw [if_pos hkey, hkey]
    simp [or_iff_not_imp_left]
  · rw [if_neg hkey]
    simp [Ne.symm hkey]

/-- `/a` and `/b`. -/
theorem search_kept_iff_hello :
    ∃ r₁ r₃, HttpRouter.empty.insert plainSegments "/a" (some 1) = .ok r₁ ∧
      r₁.insert plainSegments "/b" (some 2) = .ok r₃ ∧
      ((¬ SamePath ["b"] ["a"] → r₃.search plainSegments "/a" = .ok (some 1) ∧
          r₃.searchSegments ["a"] = some 1) ↔
        SamePath ["b"] ["a"] ∨ pathKey ["b"] ≠ pathKey ["a"] ∨ 2 = 1) :=
  ⟨_, _, rfl, rfl, search_kept_iff plainSegments HttpRouter.empty _ _ _ "/a" "/b" 1 2 ["a"] ["b"] []
    rfl rfl rfl rfl rfl rfl⟩

/-- `/a//b` is another path than `/a`, and takes its place. -/
theorem insert_interior_empty :
    ∃ r₁ r₃, HttpRouter.empty.insert plainSegments "/a" (some 1) = .ok r₁ ∧
      r₁.search plainSegments "/a" = .ok (some 1) ∧
      plainSegments "/a//b" = .ok ["a", "", "b"] ∧ ¬ SamePath ["a", "", "b"] ["a"] ∧
      r₁.insert plainSegments "/a//b" (some 2) = .ok r₃ ∧
      r₃.search plainSegments "/a" = .ok (some 2) :=
  ⟨_, _, rfl, rfl, rfl, by simp [SamePath, List.rdropWhile], rfl, rfl⟩

end HttpServer
