import HttpServerCpp.Router.Admission

/-!
# The tree as a representation

What every tree built by `insert` calls looks like, and what one accepted call changes in it.

* `Change` lists what an insertion can do at a position of the tree: keep the node that is there,
  or create one on the way to the end.  `change_of_insert` says that the list is complete.
* `HttpRouter.Trie` is the invariant: keys are not empty and repeated in the nodes, and a leaf has
  data unless it is the root.
* `HttpRouter.Extends` is the frame of an accepted call.
-/

namespace HttpServer

variable {T : Type} {segmentsView : String → Except String (List String)}

/-! ## Position by position -/

/-- What the insertion of `data` under `key` leaves at the position `p` of a tree. -/
inductive HttpPathNode.Change (data : T) (key : List String) (node : HttpPathNode T)
    (p : List String) (n' : HttpPathNode T) : Prop
  | kept (n : HttpPathNode T) (hat : node.at p = some n) (hpath : n'.path = n.path)
      (hdata : n'.data = if p = key then some data else n.data)
      (hleaf : n'.children = [] → n.children = [])
      (hdistinct : n.children.NodupKeys → n'.children.NodupKeys)
  | created (hnew : node.at p = none) (honWay : p <+: key) (hlast : p.getLast? = some n'.path)
      (hdata : n'.data = if p = key then some data else none)
      (hchildren : n'.children.length = if p = key then 0 else 1)
      (hdistinct : n'.children.NodupKeys)

/-- A new node after the rest of the walk: it is the end, or it has one child. -/
lemma HttpPathNode.insert_new (data : T) (key : String) (rest : List String) :
    ((new key).insert data rest).path = key ∧
      ((new key).insert data rest).data = (if [] = pathKey rest then some data else none) ∧
      ((new key).insert data rest).children.length = (if [] = pathKey rest then 0 else 1) ∧
      ((new key).insert data rest).children.NodupKeys := by
  rcases rest with _ | ⟨next, rest⟩
  · simp [insert, new]
  · by_cases hnext : next = ""
    · subst hnext
      simp [insert, new, pathKey_cons_empty]
    · rw [pathKey_cons hnext]
      simp [insert, new, hnext]

/-- A change below a child is a change of the tree. -/
lemma HttpPathNode.Change.below {data : T} {key ks : List String} {k : String}
    {node child n' : HttpPathNode T} (h : Change data key child ks n')
    (hbelow : node.at (k :: ks) = child.at ks) : Change data (k :: key) node (k :: ks) n' := by
  have hsame : k :: ks = k :: key ↔ ks = key := by simp
  rcases h with ⟨n, hat, hpath, hdata, hleaf, hdistinct⟩ |
    ⟨hnew, honWay, hlast, hdata, hchildren, hdistinct⟩
  · exact .kept n (hbelow.trans hat) hpath (by simpa only [hsame] using hdata) hleaf hdistinct
  · refine .created (hbelow.trans hnew) (List.cons_prefix_cons.mpr ⟨rfl, honWay⟩) ?_
      (by simpa only [hsame] using hdata) (by simpa only [hsame] using hchildren) hdistinct
    rw [List.getLast?_cons, hlast, Option.getD_some]

/-- Where the walk ends it sets the data. -/
lemma HttpPathNode.change_of_end {data : T} {node : HttpPathNode T} {p : List String}
    {n' : HttpPathNode T}
    (h : ({ node with data := some data } : HttpPathNode T).at p = some n') :
    Change data [] node p n' := by
  rcases p with _ | ⟨k, ks⟩
  · obtain rfl := Option.some.inj h
    exact .kept node rfl rfl rfl id id
  · exact .kept n' h rfl (by simp) id id

/-- **The list of changes is complete.** -/
theorem HttpPathNode.change_of_insert (data : T) : ∀ (segments : List String)
    (node : HttpPathNode T) (p : List String) (n' : HttpPathNode T),
    (node.insert data segments).at p = some n' → Change data (pathKey segments) node p n' := by
  intro segments
  induction segments with
  | nil =>
      intro node p n' h
      exact change_of_end h
  | cons key rest ih =>
      intro node p n' h
      by_cases hkey : key = ""
      · subst hkey
        rw [pathKey_cons_empty]
        exact change_of_end (by simpa [insert] using h)
      · rw [pathKey_cons hkey]
        rcases p with _ | ⟨k, ks⟩
        · -- the node the walk passes has a child afterwards
          rw [insert_cons data hkey] at h
          obtain rfl := Option.some.inj h
          refine .kept node rfl rfl (by simp) (fun hleaf => ?_) (List.kinsert_nodupKeys key _)
          simp [List.kinsert] at hleaf
        · rw [at_insert_cons data hkey] at h
          split_ifs at h with hk
          · subst hk
            cases hchild : node.children.dlookup k with
            | some child =>
                rw [hchild, Option.getD_some] at h
                exact (ih child ks n' h).below (by simp [at_cons, hchild])
            | none =>
                rw [hchild, Option.getD_none] at h
                rcases ks with _ | ⟨k', ks⟩
                · -- the new node itself
                  obtain rfl := Option.some.inj h
                  obtain ⟨hpath, hdata, hchildren, hdistinct⟩ := insert_new data k rest
                  exact .created (by simp [at_cons, hchild])
                    (List.cons_prefix_cons.mpr ⟨rfl, List.nil_prefix⟩) (by simp [hpath])
                    (by simpa using hdata) (by simpa using hchildren) hdistinct
                · exact (ih (new k) (k' :: ks) n' h).below (by simp [at_cons, hchild, new])
          · exact .kept n' h rfl (by simp [hk]) id id

/-! ## The invariant -/

/-- What the trees of the program look like. -/
structure HttpRouter.Trie (r : HttpRouter T) : Prop where
  /-- a node other than the root is stored under its own path, which is not empty -/
  keys : ∀ p key n, r.root.at (p ++ [key]) = some n → key ≠ "" ∧ n.path = key
  /-- a leaf other than the root has data -/
  leaves : ∀ p n, p ≠ [] → r.root.at p = some n → n.children = [] → n.data.isSome
  /-- the children of a node have different keys -/
  distinct : ∀ p n, r.root.at p = some n → n.children.NodupKeys

lemma trie_empty : (HttpRouter.empty : HttpRouter T).Trie := by
  have hroot : ∀ {p : List String} {n : HttpPathNode T},
      (HttpRouter.empty : HttpRouter T).root.at p = some n → p = [] ∧ n = .new "" := by
    intro p n h
    rcases p with _ | ⟨k, ks⟩
    · exact ⟨rfl, (Option.some.inj h).symm⟩
    · simp [HttpRouter.empty, HttpPathNode.new, HttpPathNode.at_cons] at h
  constructor
  · intro p key n h
    exact absurd (hroot h).1 (by simp)
  · exact fun p n hp h => absurd (hroot h).1 hp
  · intro p n h
    rw [(hroot h).2]
    exact List.nodupKeys_nil

/-- An insertion keeps it. -/
lemma trie_insert {r : HttpRouter T} (hr : r.Trie) (d : T) (segments : List String) :
    (⟨r.root.insert d segments⟩ : HttpRouter T).Trie := by
  constructor
  · intro p key n' h
    rcases HttpPathNode.change_of_insert d segments r.root _ n' h with ⟨n, hat, hpath, -⟩ |
      ⟨-, honWay, hlast, -⟩
    · rw [hpath]
      exact hr.keys p key n hat
    · have hkey : key ∈ pathKey segments := honWay.subset (by simp)
      refine ⟨by simpa using List.mem_takeWhile_imp hkey, ?_⟩
      simpa [eq_comm] using hlast
  · intro p n' hp h hleaf'
    rcases HttpPathNode.change_of_insert d segments r.root p n' h with
      ⟨n, hat, -, hdata, hleaf, -⟩ | ⟨-, -, -, hdata, hchildren, -⟩
    · rw [hdata]
      split_ifs
      · rfl
      · exact hr.leaves p n hp hat (hleaf hleaf')
    · rw [hleaf', List.length_nil] at hchildren
      split_ifs at hchildren hdata with hend
      rw [hdata]
      rfl
  · intro p n' h
    rcases HttpPathNode.change_of_insert d segments r.root p n' h with
      ⟨n, hat, -, -, -, hdistinct⟩ | ⟨-, -, -, -, -, hdistinct⟩
    · exact hdistinct (hr.distinct p n hat)
    · exact hdistinct

/-! ## The frame -/

/-- What an accepted call with the key `key` and the data `d` changes. -/
structure HttpRouter.Extends (r r' : HttpRouter T) (key : List String) (d : T) : Prop where
  /-- no node is removed -/
  kept : ∀ p, (r.root.at p).isSome → (r'.root.at p).isSome
  /-- the call ends at one node, and gives it the data -/
  ends : ∃ n, r'.root.at key = some n ∧ n.data = some d
  /-- no other node that was there has other data -/
  data : ∀ p n n', r.root.at p = some n → r'.root.at p = some n' → p ≠ key → n'.data = n.data
  /-- a new node is on the way to the end, and above it has no data and one child -/
  created : ∀ p n', r.root.at p = none → r'.root.at p = some n' →
    p <+: key ∧ (p ≠ key → n'.data = none ∧ n'.children.length = 1)

lemma extends_of_insert (r : HttpRouter T) (d : T) (segments : List String) :
    r.Extends ⟨r.root.insert d segments⟩ (pathKey segments) d := by
  have hat := HttpPathNode.at_insert_isSome d segments r.root
  have hdata := HttpPathNode.dataAt_insert d segments r.root
  constructor
  · exact fun p hp => (hat p).mpr (Or.inl hp)
  · obtain ⟨n, hn⟩ := Option.isSome_iff_exists.mp
      ((hat (pathKey segments)).mpr (Or.inr (List.prefix_refl _)))
    refine ⟨n, hn, ?_⟩
    have hend := hdata (pathKey segments)
    rwa [if_pos rfl, HttpPathNode.dataAt, hn, Option.bind_some] at hend
  · intro p n n' hp hp' hne
    have hsame := hdata p
    rwa [if_neg hne, HttpPathNode.dataAt, HttpPathNode.dataAt, hp, hp', Option.bind_some,
      Option.bind_some] at hsame
  · intro p n' hnew h
    rcases HttpPathNode.change_of_insert d segments r.root p n' h with ⟨n, hold, -⟩ |
      ⟨-, honWay, -, hdata, hchildren, -⟩
    · simp [hnew] at hold
    · refine ⟨honWay, fun hne => ?_⟩
      rw [if_neg hne] at hdata hchildren
      exact ⟨hdata, hchildren⟩

/-- **The trees of the program and the frame of a call**: after any sequence of calls the tree has
the invariant, and a further accepted one only extends it. -/
theorem trie_of_insertCalls (segmentsView : String → Except String (List String))
    (calls : List (String × Option T)) :
    ((HttpRouter.empty : HttpRouter T).insertCalls segmentsView calls).Trie ∧
      ∀ path data r',
        ((HttpRouter.empty : HttpRouter T).insertCalls segmentsView calls).insert segmentsView
          path data = .ok r' →
        ∃ d segments, data = some d ∧ segmentsView path = .ok segments ∧
          ((HttpRouter.empty : HttpRouter T).insertCalls segmentsView calls).Extends r'
            (pathKey segments) d := by
  constructor
  · refine insertCalls_invariant (P := HttpRouter.Trie) (fun call _ r hr => ?_) _ trie_empty
    rcases insertCall_cases r call.1 call.2 with ⟨r', hinsert, hcall⟩ | ⟨-, hsame⟩
    · obtain ⟨d, segments, -, -, hroot⟩ := insert_ok hinsert
      rw [hcall, show r' = ⟨r.root.insert d segments⟩ from congrArg HttpRouter.mk hroot]
      exact trie_insert hr d segments
    · rwa [hsame]
  · intro path data r' h
    obtain ⟨d, segments, hd, hview, hroot⟩ := insert_ok h
    refine ⟨d, segments, hd, hview, ?_⟩
    rw [show r' = ⟨HttpPathNode.insert d segments _⟩ from congrArg HttpRouter.mk hroot]
    exact extends_of_insert _ d segments

/-- `/a`, a refused call, and `/a/b/c`, which creates two nodes. -/
theorem trie_of_insertCalls_hello :
    ∃ r', ((HttpRouter.empty : HttpRouter Nat).insertCalls plainSegments
        [("/a", some 1), ("b", some 2)]).insert plainSegments "/a/b/c" (some 3) = .ok r' ∧
      ∃ d segments, some 3 = some d ∧ plainSegments "/a/b/c" = .ok segments ∧
        ((HttpRouter.empty : HttpRouter Nat).insertCalls plainSegments
          [("/a", some 1), ("b", some 2)]).Extends r' (pathKey segments) d :=
  ⟨_, rfl, (trie_of_insertCalls plainSegments [("/a", some 1), ("b", some 2)]).2 "/a/b/c" (some 3)
    _ rfl⟩

end HttpServer
