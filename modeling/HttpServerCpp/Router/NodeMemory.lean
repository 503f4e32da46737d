import HttpServerCpp.Core.Heap
import HttpServerCpp.Router.Admission

/-!
# The nodes in memory

`http_router.h` builds its tree from raw pointers: nodes are allocated with `new`, stored in the
`children_` maps of other nodes, and deleted by the destructor of the node above them.  This file
models the code at that level, on a `Heap` of node objects, where an access through a dangling
pointer or a second `delete` is `none`.

* `Models` ties the objects of a router to the tree of `Router/HttpRouter.lean`: the same
  positions with the same data, all objects reached from the root, none reached twice.
* `insertLoop_spec`: the loop of `insert` adds the missing positions and moves no node.
* `memory_refines`: after any calls every `search` finds what it finds in the tree.
* `destructor_frees_all`: the destructor deletes every node once and leaves none.
-/

namespace HttpServer

variable {T : Type}

/-! ## Objects -/

/-- `HttpPathNode<T>`; `children_` holds addresses. -/
structure NodeObject (T : Type) where
  path : String
  data : Option T
  children : List (String × Nat)

instance : Linked (NodeObject T) String := ⟨NodeObject.children⟩

/-- `HttpRouter<T>`, and the heap with its nodes. -/
structure RouterObject (T : Type) where
  heap : Heap (NodeObject T)
  root : Nat

/-- `HttpPathNode::HttpPathNode`, for a node without data. -/
def NodeObject.new (path : String) : NodeObject T := ⟨path, none, []⟩

/-- `next_node->data_ = data`. -/
def setData (data : T) (h : Heap (NodeObject T)) (next : Nat) : Option (Heap (NodeObject T)) :=
  (h.read next).map fun node => h.write next { node with data := some data }

/-- The loop of `insert`, from `next_node` on. -/
def insertLoop (data : T) :
    List String → Heap (NodeObject T) → Nat → Option (Heap (NodeObject T))
  | [], h, next => setData data h next
  | key :: rest, h, next =>
      if key = "" then setData data h next
      else (h.read next).bind fun node =>
        match node.children.lookup key with
        | some child => insertLoop data rest h child
        | none =>
            let newNode := h.fresh
            let h := h.alloc (.new key)
            let h := h.write next { node with children := node.children ++ [(key, newNode)] }
            insertLoop data rest h newNode

/-- The loop of both `search` overloads. -/
def searchLoop (h : Heap (NodeObject T)) : List String → Nat → Option Nat
  | [], current => some current
  | key :: rest, current =>
      if key = "" then some current
      else (h.read current).bind fun node =>
        match node.children.lookup key with
        | none => some current
        | some child => searchLoop h rest child

namespace RouterObject

/-- `HttpRouter::HttpRouter`. -/
def construct : RouterObject T where
  heap := Heap.empty.alloc (.new "")
  root := (Heap.empty : Heap (NodeObject T)).fresh

/-- `HttpRouter::insert`: the exception if it throws, and the router after the call. -/
def insertCall (segmentsView : String → Except String (List String)) (r : RouterObject T)
    (path : String) (data : Option T) : Option (Except String Unit × RouterObject T) :=
  match data with
  | none => some (.error "data should be not empty", r)
  | some data =>
      if path.toList.head? ≠ some '/' then some (.error "path should start with '/'", r)
      else if ['.', '.'] <:+: path.toList then some (.error "path is invalid", r)
      else
        match segmentsView path with
        | .error e => some (.error e, r)
        | .ok segments =>
            if segments.length = 0 then
              (setData data r.heap r.root).map fun h => (.ok (), { r with heap := h })
            else (insertLoop data segments r.heap r.root).map fun h =>
              (.ok (), { r with heap := h })

/-- A sequence of calls, some of which may throw. -/
def insertCalls (segmentsView : String → Except String (List String)) :
    RouterObject T → List (String × Option T) → Option (RouterObject T)
  | r, [] => some r
  | r, call :: calls =>
      (r.insertCall segmentsView call.1 call.2).bind fun result =>
        result.2.insertCalls segmentsView calls

/-- The data of the node at an address, or nothing for the root. -/
def found (r : RouterObject T) (current : Nat) : Option (Option T) :=
  if current = r.root then some none else (r.heap.read current).map NodeObject.data

/-- `HttpRouter::search(urls::segments_view)`. -/
def searchSegments (r : RouterObject T) (segments : List String) : Option (Option T) :=
  if segments.length = 0 then (r.heap.read r.root).map NodeObject.data
  else (searchLoop r.heap segments r.root).bind r.found

/-- `HttpRouter::search(beast::string_view)`. -/
def search (segmentsView : String → Except String (List String)) (r : RouterObject T)
    (path : String) : Option (Except String (Option T)) :=
  if path.length = 0 then (r.heap.read r.root).map fun node => .ok node.data
  else if path.toList.head? ≠ some '/' then some (.ok none)
  else
    match segmentsView path with
    | .error e => some (.error e)
    | .ok segments => (r.searchSegments segments).map .ok

/-- `HttpRouter::~HttpRouter`: `delete root_`, and with it what is below. -/
def destruct (r : RouterObject T) : Option (Heap (NodeObject T)) :=
  Heap.destroy r.heap.cells.length r.heap r.root

end RouterObject

/-! ## The loop of `insert` -/

section Loops

variable {h h' : Heap (NodeObject T)} {root : Nat} {key : List String} {data : T}

/-- The data at a position. -/
def dataAt (h : Heap (NodeObject T)) (root : Nat) (ks : List String) : Option T :=
  (h.follow root ks).bind fun p => (h.read p).bind NodeObject.data

/-- The nodes of a router: a tree, and nothing beside it. -/
structure Nodes (h : Heap (NodeObject T)) (root : Nat) : Prop where
  tree : h.IsTree root
  complete : ∀ p, (h.read p).isSome → h.Below root p

/-- What a call with the key `key` makes of the nodes. -/
structure Inserted (root : Nat) (h h' : Heap (NodeObject T)) (key : List String) (data : T) :
    Prop where
  nodes : Nodes h' root
  /-- no node is moved -/
  stable : ∀ ks p, h.follow root ks = some p → h'.follow root ks = some p
  positions : ∀ ks, (h'.follow root ks).isSome ↔ (h.follow root ks).isSome ∨ ks <+: key
  data : ∀ ks, dataAt h' root ks = if ks = key then some data else dataAt h root ks

/-- The way to a position consists of positions. -/
lemma isSome_of_way {ks pos : List String} {p : Nat} (hpos : h.follow root pos = some p)
    (hway : ks <+: pos) : (h.follow root ks).isSome := by
  obtain ⟨rest, rfl⟩ := hway
  rw [Heap.follow_append] at hpos
  obtain ⟨q, hq, -⟩ := Option.bind_eq_some_iff.mp hpos
  exact Option.isSome_iff_exists.mpr ⟨q, hq⟩

/-- Where the loop ends it sets the data. -/
lemma setData_spec (hn : Nodes h root) {pos : List String} {next : Nat}
    (hpos : h.follow root pos = some next) (data : T) :
    ∃ h', setData data h next = some h' ∧ Inserted root h h' pos data := by
  obtain ⟨node, hnode⟩ := Option.isSome_iff_exists.mp (hn.tree.live pos next hpos)
  have hedges : Linked.edges { node with data := some data } = Linked.edges node := rfl
  have hfollow := Heap.follow_write hnode hedges
  refine ⟨_, by rw [setData, hnode, Option.map_some], ?_⟩
  constructor
  · refine ⟨hn.tree.write hnode rfl, fun p hp => ?_⟩
    have hold : (h.read p).isSome := by
      rw [Heap.read_write h hnode] at hp
      split_ifs at hp with hnext
      · rw [hnext, hnode]
        rfl
      · exact hp
    obtain ⟨ks, hks⟩ := hn.complete p hold
    exact ⟨ks, by rw [hfollow, hks]⟩
  · intro ks p hp
    rw [hfollow, hp]
  · intro ks
    rw [hfollow]
    exact ⟨Or.inl, fun h => h.elim id (isSome_of_way hpos)⟩
  · intro ks
    rw [dataAt, hfollow, dataAt]
    split_ifs with hks
    · rw [hks, hpos, Option.bind_some,
        Heap.read_write h hnode, if_pos rfl]
      rfl
    · cases hp : h.follow root ks with
      | none => rfl
      | some p =>
          have hne : p ≠ next := by
            rintro rfl
            exact hks (hn.tree.inj ks pos p hp hpos)
          rw [Option.bind_some, Option.bind_some, Heap.read_write h hnode, if_neg hne]

/-- A node that the loop creates. -/
lemma newNode_spec (hn : Nodes h root) {pos : List String} {next : Nat} {node : NodeObject T}
    {key : String} (hpos : h.follow root pos = some next) (hnode : h.read next = some node)
    (hkey : node.children.lookup key = none) :
    let h' := (h.alloc (.new key)).write next
      { node with children := node.children ++ [(key, h.fresh)] }
    Nodes h' root ∧
      (∀ ks, h'.follow root ks = if ks = pos ++ [key] then some h.fresh else h.follow root ks) ∧
      h.follow root (pos ++ [key]) = none ∧
      ∀ ks, dataAt h' root ks = dataAt h root ks := by
  intro h'
  have hfollow := hn.tree.follow_graft (.new key)
    { node with children := node.children ++ [(key, h.fresh)] } hpos hnode hkey rfl rfl
  have hread := Heap.read_graft hnode (.new key)
    { node with children := node.children ++ [(key, h.fresh)] }
  have hnew : h.follow root (pos ++ [key]) = none := by
    rw [Heap.follow_snoc, hpos, Option.bind_some, hnode, Option.bind_some]
    exact hkey
  have hfresh : h.fresh ≠ next := by
    rintro rfl
    exact hn.tree.follow_ne_fresh hpos
  refine ⟨⟨hn.tree.graft_isTree _ _ hpos hnode hkey rfl rfl, fun p hp => ?_⟩, hfollow, hnew, ?_⟩
  · by_cases hpf : p = h.fresh
    · exact ⟨pos ++ [key], by rw [hpf]; exact (hfollow _).trans (if_pos rfl)⟩
    · have hold : (h.read p).isSome := by
        have hp' := hread p
        rw [if_neg hpf] at hp'
        split_ifs at hp' with hnext
        · rw [hnext, hnode]
          rfl
        · rw [← hp']
          exact hp
      obtain ⟨ks, hks⟩ := hn.complete p hold
      refine ⟨ks, (hfollow ks).trans ?_⟩
      rw [if_neg, hks]
      rintro rfl
      rw [hnew] at hks
      cases hks
  · intro ks
    rw [dataAt, show h'.follow root ks = _ from hfollow ks, dataAt]
    split_ifs with hks
    · rw [hks, hnew, Option.bind_some, show h'.read h.fresh = _ from hread h.fresh, if_neg hfresh,
        if_pos rfl]
      rfl
    · cases hp : h.follow root ks with
      | none => rfl
      | some p =>
          have hpf : p ≠ h.fresh := by
            rintro rfl
            exact hn.tree.follow_ne_fresh hp
          rw [Option.bind_some, Option.bind_some, show h'.read p = _ from hread p, if_neg hpf]
          split_ifs with hnext
          · rw [hnext, hnode]
            rfl
          · rfl

/-- **The loop of `insert`** never follows a dangling pointer, and adds the positions on the way
to its key. -/
theorem insertLoop_spec (data : T) : ∀ (segments : List String) (h : Heap (NodeObject T))
    (next : Nat) (pos : List String), Nodes h root → h.follow root pos = some next →
    ∃ h', insertLoop data segments h next = some h' ∧
      Inserted root h h' (pos ++ pathKey segments) data := by
  intro segments
  induction segments with
  | nil =>
      intro h next pos hn hpos
      simpa [insertLoop] using setData_spec hn hpos data
  | cons key rest ih =>
      intro h next pos hn hpos
      by_cases hkey : key = ""
      · subst hkey
        simpa [insertLoop, pathKey_cons_empty] using setData_spec hn hpos data
      · obtain ⟨node, hnode⟩ := Option.isSome_iff_exists.mp (hn.tree.live pos next hpos)
        have hway : pos ++ pathKey (key :: rest) = pos ++ [key] ++ pathKey rest := by
          rw [pathKey_cons hkey]
          simp
        rw [insertLoop, if_neg hkey, hnode, Option.bind_some, hway]
        cases hchild : node.children.lookup key with
        | some child =>
            refine ih h child (pos ++ [key]) hn ?_
            rw [Heap.follow_snoc, hpos, Option.bind_some, hnode, Option.bind_some]
            exact hchild
        | none =>
            obtain ⟨hn', hat, hnew, hdata⟩ := newNode_spec hn hpos hnode hchild
            obtain ⟨h', hloop, hins⟩ := ih _ h.fresh (pos ++ [key]) hn'
              ((hat _).trans (if_pos rfl))
            refine ⟨h', hloop, hins.nodes, ?_, ?_, ?_⟩
            · intro ks p hp
              refine hins.stable ks p ((hat ks).trans ?_)
              rw [if_neg, hp]
              rintro rfl
              rw [hnew] at hp
              cases hp
            · intro ks
              rw [hins.positions, hat]
              split_ifs with hks
              · simp [hks]
              · rfl
            · intro ks
              rw [hins.data, hdata]

end Loops

/-! ## The tree in memory -/

/-- The objects of `m` are the tree of `r`. -/
structure Models (m : RouterObject T) (r : HttpRouter T) : Prop where
  nodes : Nodes m.heap m.root
  positions : ∀ ks, (m.heap.follow m.root ks).isSome ↔ (r.root.at ks).isSome
  data : ∀ ks, dataAt m.heap m.root ks = r.root.dataAt ks

lemma models_construct : Models (.construct : RouterObject T) .empty := by
  have hfollow : ∀ ks, (RouterObject.construct : RouterObject T).heap.follow 0 ks =
      if ks = [] then some 0 else none := by
    intro ks
    cases ks <;> rfl
  refine ⟨⟨⟨?_, ?_, ?_⟩, ?_⟩, ?_, ?_⟩
  · intro ks p hp
    rw [show (RouterObject.construct : RouterObject T).root = 0 from rfl, hfollow] at hp
    split_ifs at hp
    obtain rfl := Option.some.inj hp
    rfl
  · intro ks ks' p hp hp'
    rw [show (RouterObject.construct : RouterObject T).root = 0 from rfl, hfollow] at hp hp'
    split_ifs at hp hp' with hks hks'
    rw [hks, hks']
  · intro ks p c hp hc
    rw [show (RouterObject.construct : RouterObject T).root = 0 from rfl, hfollow] at hp
    split_ifs at hp
    obtain rfl := Option.some.inj hp
    obtain rfl := Option.some.inj hc
    exact List.nodup_nil
  · intro p hp
    rcases p with _ | p
    · exact ⟨[], rfl⟩
    · cases hp
  · intro ks
    cases ks <;> rfl
  · intro ks
    cases ks <;> rfl

/-- An insertion on both sides. -/
lemma Models.inserted {m : RouterObject T} {r : HttpRouter T} (hm : Models m r)
    {h' : Heap (NodeObject T)} {segments : List String} {data : T}
    (hins : Inserted m.root m.heap h' (pathKey segments) data) :
    Models { m with heap := h' } ⟨r.root.insert data segments⟩ where
  nodes := hins.nodes
  positions ks := by
    rw [hins.positions, hm.positions, HttpPathNode.at_insert_isSome]
  data ks := by
    rw [hins.data, hm.data, HttpPathNode.dataAt_insert]

/-- **The step**: a call does in memory what it does to the tree. -/
theorem Models.insertCall {m : RouterObject T} {r : HttpRouter T} (hm : Models m r)
    (segmentsView : String → Except String (List String)) (path : String) (data : Option T) :
    ∃ m', m.insertCall segmentsView path data =
        some ((r.insertCall segmentsView path data).1, m') ∧
      Models m' (r.insertCall segmentsView path data).2 ∧ m'.root = m.root ∧
      ∀ ks p, m.heap.follow m.root ks = some p → m'.heap.follow m.root ks = some p := by
  unfold RouterObject.insertCall HttpRouter.insertCall
  cases data with
  | none => exact ⟨m, rfl, hm, rfl, fun _ _ => id⟩
  | some d =>
      dsimp only
      split_ifs with hslash hdots
      · exact ⟨m, rfl, hm, rfl, fun _ _ => id⟩
      · exact ⟨m, rfl, hm, rfl, fun _ _ => id⟩
      · cases hview : segmentsView path with
        | error e => exact ⟨m, rfl, hm, rfl, fun _ _ => id⟩
        | ok segments =>
            dsimp only
            split_ifs with hlen
            · obtain rfl := List.length_eq_zero_iff.mp hlen
              obtain ⟨h', hset, hins⟩ := setData_spec hm.nodes (Heap.follow_nil m.heap m.root) d
              refine ⟨{ m with heap := h' }, by rw [hset, Option.map_some], ?_, rfl, hins.stable⟩
              rw [← pathKey_nil] at hins
              exact hm.inserted hins
            · obtain ⟨h', hloop, hins⟩ := insertLoop_spec d segments m.heap m.root [] hm.nodes
                (Heap.follow_nil m.heap m.root)
              exact ⟨{ m with heap := h' }, by rw [hloop, Option.map_some], hm.inserted hins, rfl,
                hins.stable⟩

lemma Models.insertCalls (segmentsView : String → Except String (List String)) :
    ∀ (calls : List (String × Option T)) {m : RouterObject T} {r : HttpRouter T}, Models m r →
      ∃ m', m.insertCalls segmentsView calls = some m' ∧
        Models m' (r.insertCalls segmentsView calls) := by
  intro calls
  induction calls with
  | nil => exact fun {m r} hm => ⟨m, rfl, hm⟩
  | cons call calls ih =>
      intro m r hm
      obtain ⟨m₁, hcall, hm₁, -⟩ := hm.insertCall segmentsView call.1 call.2
      obtain ⟨m', hcalls, hm'⟩ := ih hm₁
      refine ⟨m', ?_, hm'⟩
      rw [RouterObject.insertCalls, hcall, Option.bind_some, hcalls]

/-! ## The search loops -/

/-- The walk of the search, on the objects and on the tree. -/
lemma Models.searchLoop {m : RouterObject T} {r : HttpRouter T} (hm : Models m r) :
    ∀ (segments : List String) (current : Nat) (pos : List String) (n : HttpPathNode T),
      m.heap.follow m.root pos = some current → r.root.at pos = some n →
      ∃ ks p n', searchLoop m.heap segments current = some p ∧ n.descend pos segments = (ks, n') ∧
        m.heap.follow m.root ks = some p ∧ r.root.at ks = some n' := by
  intro segments
  induction segments with
  | nil => exact fun current pos n hpos hn => ⟨pos, current, n, rfl, rfl, hpos, hn⟩
  | cons key rest ih =>
      intro current pos n hpos hn
      by_cases hkey : key = ""
      · exact ⟨pos, current, n, by rw [HttpServer.searchLoop, if_pos hkey],
          by rw [HttpPathNode.descend, if_pos hkey], hpos, hn⟩
      · obtain ⟨node, hnode⟩ := Option.isSome_iff_exists.mp (hm.nodes.tree.live pos current hpos)
        have hmemory : m.heap.follow m.root (pos ++ [key]) = node.children.lookup key := by
          rw [Heap.follow_snoc, hpos, Option.bind_some, hnode]
          rfl
        have htree : r.root.at (pos ++ [key]) = n.children.dlookup key :=
          HttpPathNode.at_snoc hn key
        have hsame := hm.positions (pos ++ [key])
        rw [hmemory, htree] at hsame
        rw [HttpServer.searchLoop, if_neg hkey, hnode, Option.bind_some, HttpPathNode.descend,
          if_neg hkey]
        cases hchild : node.children.lookup key with
        | none =>
            have hnone : n.children.dlookup key = none := by
              rw [← Option.not_isSome_iff_eq_none, ← hsame, hchild]
              simp
            rw [hnone]
            exact ⟨pos, current, n, rfl, rfl, hpos, hn⟩
        | some child =>
            obtain ⟨n₁, hn₁⟩ := Option.isSome_iff_exists.mp (hsame.mp (by rw [hchild]; rfl))
            rw [hn₁]
            exact ih child (pos ++ [key]) n₁ (hmemory.trans hchild) (htree.trans hn₁)

/-- The comparison with `root_` and the data of the node the loop ends at. -/
lemma Models.found {m : RouterObject T} {r : HttpRouter T} (hm : Models m r) {ks : List String}
    {p : Nat} {n : HttpPathNode T} (hp : m.heap.follow m.root ks = some p)
    (hn : r.root.at ks = some n) : m.found p = some (if ks = [] then none else n.data) := by
  have hroot : p = m.root ↔ ks = [] := by
    constructor
    · rintro rfl
      exact hm.nodes.tree.inj ks [] m.root hp rfl
    · rintro rfl
      exact (Option.some.inj hp).symm
  obtain ⟨node, hnode⟩ := Option.isSome_iff_exists.mp (hm.nodes.tree.live ks p hp)
  have hdata := hm.data ks
  rw [dataAt, hp, Option.bind_some, hnode, Option.bind_some, HttpPathNode.dataAt, hn,
    Option.bind_some] at hdata
  unfold RouterObject.found
  by_cases hks : ks = []
  · rw [if_pos (hroot.mpr hks), if_pos hks]
  · rw [if_neg (mt hroot.mp hks), if_neg hks, hnode, Option.map_some, hdata]

lemma Models.root_data {m : RouterObject T} {r : HttpRouter T} (hm : Models m r) :
    (m.heap.read m.root).map NodeObject.data = some r.root.data := by
  obtain ⟨node, hnode⟩ := Option.isSome_iff_exists.mp (hm.nodes.tree.live [] m.root rfl)
  have hdata := hm.data []
  rw [dataAt, Heap.follow_nil, Option.bind_some, hnode, Option.bind_some] at hdata
  rw [hnode, Option.map_some, hdata]
  rfl

lemma Models.searchSegments {m : RouterObject T} {r : HttpRouter T} (hm : Models m r)
    (segments : List String) : m.searchSegments segments = some (r.searchSegments segments) := by
  unfold RouterObject.searchSegments HttpRouter.searchSegments
  split_ifs with hlen
  · exact hm.root_data
  · obtain ⟨ks, p, n, hloop, hdescend, hp, hn⟩ := hm.searchLoop segments m.root [] r.root rfl rfl
    rw [hloop, Option.bind_some, hm.found hp hn, hdescend]

lemma Models.search {m : RouterObject T} {r : HttpRouter T} (hm : Models m r)
    (segmentsView : String → Except String (List String)) (path : String) :
    m.search segmentsView path = some (r.search segmentsView path) := by
  unfold RouterObject.search HttpRouter.search
  split_ifs with hlen hslash
  · have hroot := hm.root_data
    obtain ⟨node, hnode, hdata⟩ := Option.map_eq_some_iff.mp hroot
    rw [hnode, Option.map_some, hdata]
  · rfl
  · cases hview : segmentsView path with
    | error e => rfl
    | ok segments =>
        dsimp only
        rw [hm.searchSegments, Option.map_some]
        simp only [Bind.bind, Except.bind, HttpRouter.searchSegments]
        split_ifs <;> rfl

/-! ## Routers -/

/-- **The nodes in memory are the tree.**  After any calls of `insert`, throwing ones included, no
dangling pointer was followed, both `search` overloads find what they find in the tree, and a
further call throws or returns as it does there and moves no node. -/
theorem memory_refines (segmentsView : String → Except String (List String))
    (calls : List (String × Option T)) :
    ∃ m, (RouterObject.construct : RouterObject T).insertCalls segmentsView calls = some m ∧
      (∀ segments, m.searchSegments segments =
        some ((HttpRouter.empty.insertCalls segmentsView calls).searchSegments segments)) ∧
      (∀ path, m.search segmentsView path =
        some ((HttpRouter.empty.insertCalls segmentsView calls).search segmentsView path)) ∧
      ∀ path data, ∃ m', m.insertCall segmentsView path data =
          some (((HttpRouter.empty.insertCalls segmentsView calls).insertCall segmentsView
            path data).1, m') ∧ m'.root = m.root ∧
        ∀ ks p, m.heap.follow m.root ks = some p → m'.heap.follow m.root ks = some p := by
  obtain ⟨m, hcalls, hm⟩ := models_construct.insertCalls segmentsView calls
  refine ⟨m, hcalls, hm.searchSegments, hm.search segmentsView, fun path data => ?_⟩
  obtain ⟨m', hcall, -, hroot, hstable⟩ := hm.insertCall segmentsView path data
  exact ⟨m', hcall, hroot, hstable⟩

/-- **Nothing leaks and nothing is deleted twice.**  The destructor of a router, after any calls of
`insert`, runs to its end and leaves no node. -/
theorem destructor_frees_all (segmentsView : String → Except String (List String))
    (calls : List (String × Option T)) :
    ∃ m h, (RouterObject.construct : RouterObject T).insertCalls segmentsView calls = some m ∧
      m.destruct = some h ∧ ∀ p, h.read p = none := by
  obtain ⟨m, hcalls, hm⟩ := models_construct.insertCalls segmentsView calls
  obtain ⟨h, hdestroy, hfreed⟩ := Heap.destroy_spec m.heap.cells.length m.heap m.root hm.nodes.tree
    fun ks q hq => hm.nodes.tree.length_lt hq
  refine ⟨m, h, hcalls, hdestroy, fun p => ?_⟩
  by_cases hp : m.heap.Below m.root p
  · exact hfreed.gone p hp
  · rw [hfreed.kept p hp, ← Option.not_isSome_iff_eq_none]
    exact fun hsome => hp (hm.nodes.complete p hsome)

end HttpServer
