import Mathlib.Data.List.Sigma
import Mathlib.Data.List.Infix

/-!
# The route tree

`HttpRouter<T>` (`src/http_router.h`) as it stands: a tree of `HttpPathNode`s, an `insert` that
walks the decoded segments of a path and creates the nodes it misses, and two `search` overloads
with one loop.  A `T*` is an `Option T`.

`boost::urls::segments_view` is outside the repository.  Its constructor is the parameter
`segmentsView`: the decoded segments of a path, or the exception it throws on a string that is
not a path.

The loops compare the node they stand on with `root_`.  Two nodes are the same object exactly
when the same keys lead to them, so the search loop carries the keys it has followed, and
"the node is `root_`" is "no key has been followed".
-/

namespace HttpServer

/-- `HttpPathNode`: the key it is stored under, the data registered here, and the children. -/
structure HttpPathNode (T : Type) where
  path : String
  data : Option T
  children : List (Sigma fun _ : String => HttpPathNode T)

/-- `HttpRouter`: the root node. -/
structure HttpRouter (T : Type) where
  root : HttpPathNode T

variable {T : Type}

/-- The node `insert` creates for a key it does not find. -/
def HttpPathNode.new (path : String) : HttpPathNode T := ⟨path, none, []⟩

/-- `HttpRouter::HttpRouter`. -/
def HttpRouter.empty : HttpRouter T := ⟨HttpPathNode.new ""⟩

/-- The loop of `insert`, from the node it stands on: follow or create one child for each
segment, stop at the first empty one, and set the data where the walk ends. -/
def HttpPathNode.insert (data : T) : List String → HttpPathNode T → HttpPathNode T
  | [], node => { node with data := some data }
  | key :: rest, node =>
      if key = "" then { node with data := some data }
      else match node.children.dlookup key with
        | some child => { node with children := node.children.kinsert key (child.insert data rest) }
        | none =>
            { node with
              children := node.children.kinsert key ((HttpPathNode.new key).insert data rest) }

/-- `HttpRouter::insert`. -/
def HttpRouter.insert (segmentsView : String → Except String (List String)) (r : HttpRouter T)
    (path : String) (data : Option T) : Except String (HttpRouter T) :=
  match data with
  | none => .error "data should be not empty"
  | some data =>
      if path.toList.head? ≠ some '/' then .error "path should start with '/'"
      else if ['.', '.'] <:+: path.toList then .error "path is invalid"
      else do
        let segments ← segmentsView path
        if segments.length = 0 then .ok ⟨{ r.root with data := some data }⟩
        else .ok ⟨r.root.insert data segments⟩

/-- The loop of both `search` overloads: the keys followed and the node reached. -/
def HttpPathNode.descend (node : HttpPathNode T) (followed : List String) :
    List String → List String × HttpPathNode T
  | [] => (followed, node)
  | key :: rest =>
      if key = "" then (followed, node)
      else match node.children.dlookup key with
        | none => (followed, node)
        | some child => child.descend (followed ++ [key]) rest

/-- `HttpRouter::search(urls::segments_view)`. -/
def HttpRouter.searchSegments (r : HttpRouter T) (segments : List String) : Option T :=
  if segments.length = 0 then r.root.data
  else
    let (followed, node) := r.root.descend [] segments
    if followed = [] then none else node.data

/-- `HttpRouter::search(beast::string_view)`. -/
def HttpRouter.search (segmentsView : String → Except String (List String)) (r : HttpRouter T)
    (path : String) : Except String (Option T) :=
  if path.length = 0 then .ok r.root.data
  else if path.toList.head? ≠ some '/' then .ok none
  else do
    let segments ← segmentsView path
    if segments.length = 0 then .ok r.root.data
    else
      let (followed, node) := r.root.descend [] segments
      if followed = [] then .ok none else .ok node.data

/-- A sequence of `insert` calls, stopping at the first that throws. -/
def HttpRouter.insertAll (segmentsView : String → Except String (List String)) :
    HttpRouter T → List (String × T) → Except String (HttpRouter T)
  | r, [] => .ok r
  | r, (path, data) :: calls => do
      let r' ← r.insert segmentsView path (some data)
      r'.insertAll segmentsView calls

/-- Splitting at `/`, without percent-decoding: what `segments_view` yields for a path that
contains no escape. -/
def plainSegments (path : String) : Except String (List String) :=
  match path.toList with
  | [] | ['/'] => .ok []
  | '/' :: rest => .ok ((rest.splitOn '/').map String.ofList)
  | rest => .ok ((rest.splitOn '/').map String.ofList)

/-! ## Nodes by position -/

/-- The node reached by following `keys`. -/
def HttpPathNode.at (node : HttpPathNode T) : List String → Option (HttpPathNode T)
  | [] => some node
  | key :: keys => (node.children.dlookup key).bind fun child => child.at keys

@[simp] lemma HttpPathNode.at_nil (node : HttpPathNode T) : node.at [] = some node := rfl

lemma HttpPathNode.at_cons (node : HttpPathNode T) (key : String) (keys : List String) :
    node.at (key :: keys) = (node.children.dlookup key).bind fun child => child.at keys := rfl

/-- The children of the node at a position are the positions below it. -/
lemma HttpPathNode.at_snoc {node n : HttpPathNode T} {keys : List String}
    (hn : node.at keys = some n) (key : String) :
    node.at (keys ++ [key]) = n.children.dlookup key := by
  induction keys generalizing node with
  | nil =>
      obtain rfl := Option.some.inj hn
      rw [List.nil_append, at_cons]
      cases node.children.dlookup key <;> rfl
  | cons k keys ih =>
      rw [at_cons] at hn
      obtain ⟨child, hchild, hn⟩ := Option.bind_eq_some_iff.mp hn
      rw [List.cons_append, at_cons, hchild, Option.bind_some, ih hn]

/-- A step of the walk of `insert`: the child is the one that is there, or a new one. -/
lemma HttpPathNode.insert_cons (data : T) {key : String} (hkey : key ≠ "") (rest : List String)
    (node : HttpPathNode T) :
    node.insert data (key :: rest) =
      { node with
        children := node.children.kinsert key
          (((node.children.dlookup key).getD (new key)).insert data rest) } := by
  rw [insert, if_neg hkey]
  cases node.children.dlookup key <;> rfl

/-- Below the node it passes, the walk changes what is under its first key. -/
lemma HttpPathNode.at_insert_cons (data : T) {key : String} (hkey : key ≠ "") (rest : List String)
    (node : HttpPathNode T) (k : String) (ks : List String) :
    (node.insert data (key :: rest)).at (k :: ks) =
      if k = key then (((node.children.dlookup k).getD (new k)).insert data rest).at ks
      else node.at (k :: ks) := by
  rw [insert_cons data hkey, at_cons]
  split_ifs with hk
  · subst hk
    rw [List.dlookup_kinsert, Option.bind_some]
  · rw [List.dlookup_kinsert_ne hk, ← at_cons]

/-- A new node is the only one of its tree. -/
lemma HttpPathNode.at_new (key : String) (keys : List String) :
    (new key : HttpPathNode T).at keys = if keys = [] then some (new key) else none := by
  cases keys <;> rfl

/-- The data registered at a position. -/
def HttpPathNode.dataAt (node : HttpPathNode T) (keys : List String) : Option T :=
  (node.at keys).bind HttpPathNode.data

/-- The part of a segment list the loops read: up to the first empty segment. -/
def pathKey (segments : List String) : List String := segments.takeWhile (· ≠ "")

@[simp] lemma pathKey_nil : pathKey [] = [] := rfl

lemma pathKey_cons_empty (rest : List String) : pathKey ("" :: rest) = [] := by
  simp [pathKey]

lemma pathKey_cons {key : String} (h : key ≠ "") (rest : List String) :
    pathKey (key :: rest) = key :: pathKey rest := by
  simp [pathKey, h]

end HttpServer
