import HttpServerCpp.Core.LongestPrefix
import HttpServerCpp.Router.HttpRouter

/-!
# The tree refines the list of registrations

What the route tree is for is a map from keys to handlers in which the last registration under a
key wins.  `Represents r regs` says that the tree `r` is that map for the registrations `regs`:
its positions are the prefixes of the registered keys, and the data at a position is what was
registered there last.

* `represents_insertAll`: every sequence of accepted `insert` calls keeps the relation.
* `searchSegments_eq`: `search` returns what is registered at the longest prefix of the query's
  key that some registered key runs through, and nothing when that prefix is empty.
-/

namespace HttpServer

variable {T : Type}

/-! ## Insertion, position by position -/

/-- Positions after an insertion: the old ones and the prefixes of the inserted key. -/
lemma HttpPathNode.at_insert_isSome (data : T) : ∀ (segments : List String) (node : HttpPathNode T)
    (p : List String), ((node.insert data segments).at p).isSome ↔
      (node.at p).isSome ∨ p <+: pathKey segments := by
  intro segments
  induction segments with
  | nil =>
      intro node p
      cases p <;> simp [HttpPathNode.insert, at_cons]
  | cons key rest ih =>
      intro node p
      by_cases hkey : key = ""
      · subst hkey
        rw [pathKey_cons_empty]
        cases p <;> simp [HttpPathNode.insert, at_cons]
      · rw [pathKey_cons hkey]
        cases p with
        | nil => simp
        | cons k ks =>
            rw [at_insert_cons data hkey, List.cons_prefix_cons]
            split_ifs with hk
            · subst hk
              rw [ih]
              cases hchild : node.children.dlookup k with
              | some child => simp [at_cons, hchild]
              | none =>
                  have hnil : ks = [] → ks <+: pathKey rest := by
                    rintro rfl
                    exact List.nil_prefix
                  simpa [at_cons, at_new, hchild] using hnil
            · simp [hk]

/-- Data after an insertion: changed at the inserted key and nowhere else. -/
lemma HttpPathNode.dataAt_insert (data : T) : ∀ (segments : List String) (node : HttpPathNode T)
    (p : List String), (node.insert data segments).dataAt p =
      if p = pathKey segments then some data else node.dataAt p := by
  intro segments
  induction segments with
  | nil =>
      intro node p
      cases p <;> simp [HttpPathNode.insert, dataAt, at_cons]
  | cons key rest ih =>
      intro node p
      by_cases hkey : key = ""
      · subst hkey
        rw [pathKey_cons_empty]
        cases p <;> simp [HttpPathNode.insert, dataAt, at_cons]
      · rw [pathKey_cons hkey]
        cases p with
        | nil => simp [insert_cons data hkey, dataAt]
        | cons k ks =>
            rw [dataAt, at_insert_cons data hkey]
            split_ifs with hk hend hend
            · rw [← dataAt, ih, if_pos (List.cons.inj hend).2]
            · have hother : ks ≠ pathKey rest := fun hks => hend (by rw [hk, hks])
              rw [← dataAt, ih, if_neg hother]
              cases hchild : node.children.dlookup k with
              | some child => simp [dataAt, at_cons, hchild]
              | none => cases ks <;> simp [dataAt, at_cons, hchild, new]
            · exact absurd (List.cons.inj hend).1 hk
            · rfl

/-! ## The search loop -/

/-- The loop ends at the longest prefix of the key that is a position of the tree. -/
lemma HttpPathNode.descend_spec : ∀ (segments : List String) (node : HttpPathNode T)
    (followed : List String), ∃ m n, node.descend followed segments = (followed ++ m, n) ∧
      node.at m = some n ∧
      IsLongestPrefix (fun m => (node.at m).isSome) (pathKey segments) m := by
  intro segments
  induction segments with
  | nil =>
      intro node followed
      refine ⟨[], node, by simp [descend], rfl, isLongestPrefix_nil rfl ?_⟩
      intro a m hm
      simp [pathKey] at hm
  | cons key rest ih =>
      intro node followed
      by_cases hkey : key = ""
      · subst hkey
        refine ⟨[], node, by simp [descend], rfl, isLongestPrefix_nil rfl ?_⟩
        intro a m hm
        simp [pathKey_cons_empty] at hm
      · rw [pathKey_cons hkey]
        cases hchild : node.children.dlookup key with
        | none =>
            refine ⟨[], node, by simp [descend, hkey, hchild], rfl, isLongestPrefix_nil rfl ?_⟩
            intro a m hm
            obtain ⟨rfl, -⟩ := List.cons_prefix_cons.mp hm
            simp [at_cons, hchild]
        | some child =>
            obtain ⟨m, n, hdescend, hat, hlongest⟩ := ih child (followed ++ [key])
            have hbelow : ∀ m, node.at (key :: m) = child.at m := by
              intro m
              simp [at_cons, hchild]
            refine ⟨key :: m, n, ?_, by rw [hbelow, hat], isLongestPrefix_cons ?_⟩
            · simp [descend, hkey, hchild, hdescend]
            · simpa only [hbelow] using hlongest

/-! ## The refinement -/

/-- The tree `r` is the map that the registrations `regs` describe. -/
structure Represents (r : HttpRouter T) (regs : List (List String × T)) : Prop where
  positions : ∀ p, (r.root.at p).isSome ↔ p = [] ∨ OnPath regs p
  data : ∀ p, r.root.dataAt p = latest regs p

lemma represents_empty : Represents (HttpRouter.empty : HttpRouter T) [] := by
  constructor <;> intro p <;> cases p <;>
    simp [HttpRouter.empty, HttpPathNode.new, HttpPathNode.dataAt, HttpPathNode.at_cons, OnPath]

/-- The registration an accepted call makes. -/
def registration (segmentsView : String → Except String (List String)) (call : String × T) :
    List String × T :=
  (pathKey ((segmentsView call.1).toOption.getD []), call.2)

/-- An accepted call found its path valid and walked its segments. -/
lemma insert_ok {segmentsView : String → Except String (List String)} {r r' : HttpRouter T}
    {path : String} {data : Option T} (h : r.insert segmentsView path data = .ok r') :
    ∃ d segments, data = some d ∧ segmentsView path = .ok segments ∧
      r'.root = r.root.insert d segments := by
  unfold HttpRouter.insert at h
  cases data with
  | none => simp at h
  | some d =>
      simp only at h
      split_ifs at h with hslash hdots
      cases hview : segmentsView path with
      | error err => simp [hview, Bind.bind, Except.bind] at h
      | ok segments =>
          refine ⟨d, segments, rfl, rfl, ?_⟩
          simp only [hview, Bind.bind, Except.bind] at h
          split_ifs at h with hlen
          · obtain rfl := List.length_eq_zero_iff.mp hlen
            rw [← Except.ok.inj h, HttpPathNode.insert]
          · rw [← Except.ok.inj h]

lemma represents_insert {segmentsView : String → Except String (List String)}
    {r r' : HttpRouter T} {regs : List (List String × T)} {path : String} {d : T}
    (hr : Represents r regs) (h : r.insert segmentsView path (some d) = .ok r') :
    Represents r' (regs ++ [registration segmentsView (path, d)]) := by
  obtain ⟨d', segments, hd, hview, hroot⟩ := insert_ok h
  obtain rfl := Option.some.inj hd
  have hreg : registration segmentsView (path, d) = (pathKey segments, d) := by
    simp [registration, hview, Except.toOption]
  constructor
  · intro p
    rw [hroot, HttpPathNode.at_insert_isSome, hr.positions, onPath_snoc, hreg, or_assoc]
  · intro p
    rw [hroot, HttpPathNode.dataAt_insert, hr.data, latest_snoc, hreg]

/-- **The tree refines the registrations**, whatever accepted calls built it. -/
theorem represents_insertAll {segmentsView : String → Except String (List String)} :
    ∀ (calls : List (String × T)) (r r' : HttpRouter T) (regs : List (List String × T)),
      Represents r regs → r.insertAll segmentsView calls = .ok r' →
        Represents r' (regs ++ calls.map (registration segmentsView)) := by
  intro calls
  induction calls with
  | nil =>
      intro r r' regs hr h
      obtain rfl := Except.ok.inj h
      simpa using hr
  | cons call calls ih =>
      rcases call with ⟨path, d⟩
      intro r r' regs hr h
      simp only [HttpRouter.insertAll, Bind.bind, Except.bind] at h
      cases hins : r.insert segmentsView path (some d) with
      | error err => simp [hins] at h
      | ok r₁ =>
          rw [hins] at h
          have hrest := ih r₁ r' _ (represents_insert hr hins) h
          simpa using hrest

/-- Where the search loop stands at the end, in terms of the registrations: the longest prefix of
the query's key that is the root or lies on a registered key. -/
def StopsAt (regs : List (List String × T)) (segments m : List String) : Prop :=
  IsLongestPrefix (fun m => m = [] ∨ OnPath regs m) (pathKey segments) m

lemma exists_stopsAt (regs : List (List String × T)) (segments : List String) :
    ∃ m, StopsAt regs segments m :=
  exists_isLongestPrefix ⟨[], List.nil_prefix, Or.inl rfl⟩

/-- The loop and the choice after it, shared by both overloads. -/
lemma Represents.descend_result {r : HttpRouter T} {regs : List (List String × T)}
    (hr : Represents r regs) {segments m : List String} (hm : StopsAt regs segments m) :
    (let (followed, node) := r.root.descend [] segments
     if followed = [] then none else node.data) = if m = [] then none else latest regs m := by
  obtain ⟨m', n, hdescend, hat, hlongest⟩ := HttpPathNode.descend_spec segments r.root []
  have hm' : StopsAt regs segments m' := hlongest.congr fun p _ => hr.positions p
  obtain rfl := hm.unique hm'
  have hdata : n.data = latest regs m := by
    rw [← hr.data, HttpPathNode.dataAt, hat]
    rfl
  simp [hdescend, hdata]

/-- `search` on the registrations alone. -/
theorem searchSegments_eq {r : HttpRouter T} {regs : List (List String × T)}
    (hr : Represents r regs) {segments m : List String} (hm : StopsAt regs segments m) :
    r.searchSegments segments =
      if segments = [] then latest regs [] else if m = [] then none else latest regs m := by
  unfold HttpRouter.searchSegments
  by_cases hseg : segments = []
  · subst hseg
    rw [List.length_nil, if_pos rfl, if_pos rfl, ← hr.data]
    rfl
  · rw [if_neg (by simpa using hseg), if_neg hseg]
    exact hr.descend_result hm

/-- On a path that starts with `/` the string overload is the other one on the path's segments. -/
lemma search_of_slash {segmentsView : String → Except String (List String)} (r : HttpRouter T)
    {path : String} {segments : List String} (hview : segmentsView path = .ok segments)
    (hslash : path.toList.head? = some '/') :
    r.search segmentsView path = .ok (r.searchSegments segments) := by
  have hlen : path.length ≠ 0 := by
    intro h
    rw [String.length_eq_zero_iff.mp h] at hslash
    simp at hslash
  unfold HttpRouter.search HttpRouter.searchSegments
  rw [if_neg hlen, if_neg (not_not.mpr hslash)]
  simp only [hview, Bind.bind, Except.bind]
  split_ifs <;> rfl

/-- On any other path that is not empty it finds nothing. -/
lemma search_of_not_slash (segmentsView : String → Except String (List String))
    (r : HttpRouter T) {path : String} (hne : path ≠ "") (hslash : path.toList.head? ≠ some '/') :
    r.search segmentsView path = .ok none := by
  have hlen : path.length ≠ 0 := fun h => hne (String.length_eq_zero_iff.mp h)
  unfold HttpRouter.search
  rw [if_neg hlen, if_pos hslash]

/-- On a path that is empty or starts with `/`, the string overload is the other one on the
path's segments; on any other path it finds nothing. -/
theorem search_eq {segmentsView : String → Except String (List String)} {r : HttpRouter T}
    {path : String} {segments : List String} (hview : segmentsView path = .ok segments)
    (hempty : segmentsView "" = .ok []) :
    r.search segmentsView path = .ok
      (if path = "" ∨ path.toList.head? = some '/' then r.searchSegments segments else none) := by
  by_cases hpath : path = ""
  · subst hpath
    obtain rfl := Except.ok.inj (hempty.symm.trans hview)
    simp [HttpRouter.search, HttpRouter.searchSegments]
  · by_cases hslash : path.toList.head? = some '/'
    · rw [search_of_slash r hview hslash, if_pos (Or.inr hslash)]
    · rw [search_of_not_slash segmentsView r hpath hslash, if_neg (by simp [hpath, hslash])]

end HttpServer
