import HttpServerCpp.Router.NodeMemory

/-!
# How many nodes there are

The memory a router takes.  Registering a path adds a node for each prefix of its key that was not
there; a call that throws, or registers a key again, adds none.

* `positions_insertCalls`: the positions of the tree are the prefixes of the registered keys.
* `node_per_prefix`: the nodes in memory are as many as these.
-/

namespace HttpServer

variable {T : Type}

/-- The key that a call registers, if it does not throw. -/
def acceptedKey (segmentsView : String → Except String (List String))
    (call : String × Option T) : Option (List String) :=
  if call.2.isSome ∧ call.1.toList.head? = some '/' ∧ ¬ ['.', '.'] <:+: call.1.toList then
    (segmentsView call.1).toOption.map pathKey
  else none

/-- The prefixes of keys; the empty one is that of the root. -/
def prefixes (keys : List (List String)) : Finset (List String) :=
  insert [] (keys.flatMap List.inits).toFinset

lemma mem_prefixes {keys : List (List String)} {ks : List String} :
    ks ∈ prefixes keys ↔ ks = [] ∨ ∃ key ∈ keys, ks <+: key := by
  simp [prefixes]

section Calls

variable {segmentsView : String → Except String (List String)}

lemma acceptedKey_of_throws {r : HttpRouter T} {path : String} {data : Option T}
    (h : r.Throws segmentsView path data) : acceptedKey segmentsView (path, data) = none := by
  rcases throws_iff r path data |>.mp h with rfl | hslash | hdots | ⟨e, he⟩
  · simp [acceptedKey]
  · simp [acceptedKey, hslash]
  · simp [acceptedKey, hdots]
  · simp [acceptedKey, he, Except.toOption]

lemma acceptedKey_of_insert {r r' : HttpRouter T} {path : String} {data : Option T}
    (h : r.insert segmentsView path data = .ok r') :
    ∃ d segments, r'.root = r.root.insert d segments ∧
      acceptedKey segmentsView (path, data) = some (pathKey segments) := by
  obtain ⟨d, segments, rfl, hview, hroot⟩ := insert_ok h
  have haccepted : ¬ r.Throws segmentsView path (some d) := by
    rintro ⟨e, he⟩
    rw [insertCall_eq, h] at he
    cases he
  rw [throws_iff, not_or, not_or, not_or, not_not] at haccepted
  obtain ⟨-, hslash, hdots, -⟩ := haccepted
  exact ⟨d, segments, hroot, by simp [acceptedKey, hslash, hdots, hview, Except.toOption]⟩

/-- A call adds the prefixes of the key it registers. -/
lemma positions_insertCall (r : HttpRouter T) (call : String × Option T) (ks : List String) :
    ((r.insertCall segmentsView call.1 call.2).2.root.at ks).isSome ↔
      (r.root.at ks).isSome ∨ ∃ key, acceptedKey segmentsView call = some key ∧ ks <+: key := by
  rcases insertCall_cases r call.1 call.2 with ⟨r', hinsert, hcall⟩ | ⟨hthrows, hsame⟩
  · obtain ⟨d, segments, hroot, hkey⟩ := acceptedKey_of_insert hinsert
    rw [hcall, hroot, HttpPathNode.at_insert_isSome, hkey]
    simp
  · rw [hsame, acceptedKey_of_throws hthrows]
    simp

/-- **The positions** are the prefixes of the registered keys. -/
lemma positions_insertCalls (ks : List String) :
    ∀ (calls : List (String × Option T)) (r : HttpRouter T),
      ((r.insertCalls segmentsView calls).root.at ks).isSome ↔
        (r.root.at ks).isSome ∨
          ∃ key ∈ calls.filterMap (acceptedKey segmentsView), ks <+: key := by
  intro calls
  induction calls with
  | nil => simp [HttpRouter.insertCalls]
  | cons call calls ih =>
      intro r
      rw [HttpRouter.insertCalls, ih, positions_insertCall, or_assoc]
      refine or_congr_right ?_
      cases hkey : acceptedKey segmentsView call with
      | none => simp [hkey]
      | some key => simp [hkey]

end Calls

/-- **One node for each prefix.**  After any calls of `insert`, throwing ones included, there are as
many nodes in memory as there are prefixes of registered keys. -/
theorem node_per_prefix (segmentsView : String → Except String (List String))
    (calls : List (String × Option T)) :
    ∃ m, (RouterObject.construct : RouterObject T).insertCalls segmentsView calls = some m ∧
      m.heap.live.card = (prefixes (calls.filterMap (acceptedKey segmentsView))).card := by
  obtain ⟨m, hcalls, hm⟩ := models_construct.insertCalls segmentsView calls
  refine ⟨m, hcalls, hm.nodes.tree.card_live hm.nodes.complete fun ks => ?_⟩
  rw [hm.positions, positions_insertCalls, mem_prefixes]
  refine or_congr_left ?_
  cases ks <;> simp [HttpRouter.empty, HttpPathNode.new, HttpPathNode.at_cons]

/-- `/a/b` twice, `/a` and a path that throws: three nodes. -/
example : (prefixes ([("/a/b", some 1), ("/a/b", some 2), ("/a", some 3), ("a", some 4)].filterMap
    (acceptedKey plainSegments))).card = 3 := by
  decide

end HttpServer
