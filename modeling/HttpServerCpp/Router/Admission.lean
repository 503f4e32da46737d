import HttpServerCpp.Message.OriginForm
import HttpServerCpp.Router.PutGet

/-!
# Which paths are admitted

`insert` with the state it leaves also where it throws, and whole sequences of calls, in which a
call that throws does not end the program.

The documentation asks for a path that starts with `/` and has no relative segments.  The code
looks for two dots anywhere in the text, and the tree is built from decoded segments.
`throws_documented_iff` says for which calls the two agree; among them, `..` is never a key of the
tree.
-/

namespace HttpServer

variable {T : Type} {segmentsView : String → Except String (List String)}

/-! ## Calls that may throw -/

/-- `HttpRouter::insert`, with the tree after the call. -/
def HttpRouter.insertCall (segmentsView : String → Except String (List String)) (r : HttpRouter T)
    (path : String) (data : Option T) : Except String Unit × HttpRouter T :=
  match data with
  | none => (.error "data should be not empty", r)
  | some data =>
      if path.toList.head? ≠ some '/' then (.error "path should start with '/'", r)
      else if ['.', '.'] <:+: path.toList then (.error "path is invalid", r)
      else
        match segmentsView path with
        | .error e => (.error e, r)
        | .ok segments =>
            if segments.length = 0 then (.ok (), ⟨{ r.root with data := some data }⟩)
            else (.ok (), ⟨r.root.insert data segments⟩)

/-- A sequence of calls, some of which may throw. -/
def HttpRouter.insertCalls (segmentsView : String → Except String (List String)) :
    HttpRouter T → List (String × Option T) → HttpRouter T
  | r, [] => r
  | r, call :: calls => (r.insertCall segmentsView call.1 call.2).2.insertCalls segmentsView calls

/-- The call throws. -/
def HttpRouter.Throws (segmentsView : String → Except String (List String)) (r : HttpRouter T)
    (path : String) (data : Option T) : Prop :=
  ∃ e, (r.insertCall segmentsView path data).1 = .error e

/-- **A call that throws leaves the tree as it was**, any other one is an accepted insertion. -/
lemma insertCall_eq (r : HttpRouter T) (path : String) (data : Option T) :
    r.insertCall segmentsView path data =
      match r.insert segmentsView path data with
      | .ok r' => (.ok (), r')
      | .error e => (.error e, r) := by
  unfold HttpRouter.insertCall HttpRouter.insert
  cases data with
  | none => rfl
  | some d =>
      dsimp only
      split_ifs with hslash hdots
      · rfl
      · rfl
      · cases hview : segmentsView path with
        | error e => rfl
        | ok segments =>
            simp only [Bind.bind, Except.bind]
            split_ifs <;> rfl

/-- The two outcomes of a call. -/
lemma insertCall_cases (r : HttpRouter T) (path : String) (data : Option T) :
    (∃ r', r.insert segmentsView path data = .ok r' ∧
        r.insertCall segmentsView path data = (.ok (), r')) ∨
      r.Throws segmentsView path data ∧ (r.insertCall segmentsView path data).2 = r := by
  unfold HttpRouter.Throws
  rw [insertCall_eq]
  cases r.insert segmentsView path data with
  | ok r' => exact Or.inl ⟨r', rfl, rfl⟩
  | error e => exact Or.inr ⟨⟨e, rfl⟩, rfl⟩

/-- What the code refuses. -/
lemma throws_iff (r : HttpRouter T) (path : String) (data : Option T) :
    r.Throws segmentsView path data ↔
      data = none ∨ path.toList.head? ≠ some '/' ∨ ['.', '.'] <:+: path.toList ∨
        ∃ e, segmentsView path = .error e := by
  unfold HttpRouter.Throws HttpRouter.insertCall
  cases data with
  | none => simp
  | some d =>
      dsimp only
      split_ifs with hslash hdots
      · simp [hslash]
      · simp [hdots]
      · cases hview : segmentsView path with
        | error e => simp
        | ok segments =>
            simp only [hslash, hdots, reduceCtorEq, exists_false, or_self, iff_false]
            split_ifs <;> simp

/-! ## What the documentation refuses -/

/-- No handler, no `/` in front, no path of the URL grammar, or a relative segment. -/
def DocumentedFault (segmentsView : String → Except String (List String)) (path : String)
    (data : Option T) : Prop :=
  data = none ∨ path.toList.head? ≠ some '/' ∨ (∃ e, segmentsView path = .error e) ∨
    ∃ segments, segmentsView path = .ok segments ∧ ".." ∈ segments

/-- The text shows two dots in a row exactly when a decoded segment consists of them; this matters
only for a handler under a valid path. -/
def DotsShown (segmentsView : String → Except String (List String)) (path : String)
    (data : Option T) : Prop :=
  ∀ segments, data ≠ none → path.toList.head? = some '/' → segmentsView path = .ok segments →
    (['.', '.'] <:+: path.toList ↔ ".." ∈ segments)

lemma throws_documented_iff (r : HttpRouter T) (path : String) (data : Option T) :
    (r.Throws segmentsView path data ↔ DocumentedFault segmentsView path data) ↔
      DotsShown segmentsView path data := by
  rw [throws_iff, DocumentedFault, DotsShown]
  rcases data with _ | d
  · simp
  by_cases hslash : path.toList.head? = some '/'
  · cases hview : segmentsView path with
    | error e => simp [hslash]
    | ok segments => simp [hslash]
  · simp [hslash]

/-! ## Sequences of calls -/

/-- No node of the tree is stored under `..`. -/
def HttpRouter.NoParentKey (r : HttpRouter T) : Prop :=
  ∀ keys, (r.root.at keys).isSome → ".." ∉ keys

lemma noParentKey_insertCall {r : HttpRouter T} (hr : r.NoParentKey) {path : String}
    {data : Option T} (hdots : DotsShown segmentsView path data) :
    (r.insertCall segmentsView path data).2.NoParentKey := by
  rcases insertCall_cases r path data with ⟨r', hinsert, hcall⟩ | ⟨-, hsame⟩
  · obtain ⟨d, segments, rfl, hview, hroot⟩ := insert_ok hinsert
    have haccepted : ¬ r.Throws segmentsView path (some d) := by
      rintro ⟨e, he⟩
      rw [hcall] at he
      cases he
    rw [throws_iff, not_or, not_or, not_or, not_not] at haccepted
    obtain ⟨-, hslash, hnodots, -⟩ := haccepted
    have hsegments : ".." ∉ segments := fun hmem =>
      hnodots ((hdots segments (by simp) hslash hview).mpr hmem)
    intro keys hkeys
    rw [hcall, hroot, HttpPathNode.at_insert_isSome] at hkeys
    rcases hkeys with hold | hnew
    · exact hr keys hold
    · exact fun hmem => hsegments ((List.takeWhile_sublist _).subset (hnew.subset hmem))
  · rwa [hsame]

/-- The induction over a sequence of calls. -/
lemma insertCalls_invariant {P : HttpRouter T → Prop} {calls : List (String × Option T)}
    (hstep : ∀ call ∈ calls, ∀ r, P r → P (r.insertCall segmentsView call.1 call.2).2) :
    ∀ r, P r → P (r.insertCalls segmentsView calls) := by
  induction calls with
  | nil => exact fun r hr => hr
  | cons call calls ih =>
      intro r hr
      exact ih (fun call' hmem => hstep call' (List.mem_cons_of_mem _ hmem)) _
        (hstep call List.mem_cons_self r hr)

/-- What `insert` promises about a sequence of calls: each throws exactly on a documented fault,
in any tree, and then changes no search result; and the sequence never builds a node under `..`. -/
def AdmitsDocumented (segmentsView : String → Except String (List String))
    (calls : List (String × Option T)) : Prop :=
  (∀ call ∈ calls, ∀ r : HttpRouter T,
    (r.Throws segmentsView call.1 call.2 ↔ DocumentedFault segmentsView call.1 call.2) ∧
    (r.Throws segmentsView call.1 call.2 →
      (∀ path, (r.insertCall segmentsView call.1 call.2).2.search segmentsView path =
        r.search segmentsView path) ∧
      ∀ segments, (r.insertCall segmentsView call.1 call.2).2.searchSegments segments =
        r.searchSegments segments)) ∧
  ((HttpRouter.empty : HttpRouter T).insertCalls segmentsView calls).NoParentKey

/-- **When `insert` accepts exactly what it documents.** -/
theorem admitsDocumented_iff (segmentsView : String → Except String (List String))
    (calls : List (String × Option T)) :
    AdmitsDocumented segmentsView calls ↔
      ∀ call ∈ calls, DotsShown segmentsView call.1 call.2 := by
  constructor
  · rintro ⟨hcalls, -⟩ call hcall
    exact (throws_documented_iff .empty call.1 call.2).mp (hcalls call hcall .empty).1
  · intro hdots
    refine ⟨fun call hcall r => ⟨(throws_documented_iff r _ _).mpr (hdots call hcall), ?_⟩, ?_⟩
    · intro hthrows
      have hsame : (r.insertCall segmentsView call.1 call.2).2 = r := by
        rcases insertCall_cases r call.1 call.2 with ⟨r', -, hok⟩ | ⟨-, hsame⟩
        · obtain ⟨e, he⟩ := hthrows
          rw [hok] at he
          cases he
        · exact hsame
      rw [hsame]
      exact ⟨fun _ => rfl, fun _ => rfl⟩
    · refine insertCalls_invariant (P := HttpRouter.NoParentKey)
        (fun call hcall r hr => noParentKey_insertCall hr (hdots call hcall)) _ ?_
      intro keys hkeys
      rcases keys with _ | ⟨key, keys⟩
      · exact List.not_mem_nil
      · simp [HttpRouter.empty, HttpPathNode.new, HttpPathNode.at_cons] at hkeys

/-! ## Paths of the URL grammar -/

/-- `urls::segments_view`, by the RFC. -/
def rfcSegmentsView (path : String) : Except String (List String) :=
  match path.toList with
  | [] => .ok []
  | '/' :: rest => (decodePath (fun _ => false) ('/' :: rest)).elim (.error "not a path") .ok
  | rest =>
      ((rest.splitOn '/').mapM (decodeSegment fun _ => false)).elim (.error "not a path") .ok

/-- `/%2e%2e` is accepted, and makes a node under `..`. -/
theorem escaped_parent_admitted :
    DocumentedFault rfcSegmentsView "/%2e%2e" (some 1) ∧
      ¬ (HttpRouter.empty : HttpRouter Nat).Throws rfcSegmentsView "/%2e%2e" (some 1) ∧
      ¬ ((HttpRouter.empty : HttpRouter Nat).insertCalls rfcSegmentsView
        [("/%2e%2e", some 1)]).NoParentKey ∧
      ¬ AdmitsDocumented rfcSegmentsView [("/%2e%2e", some 1)] := by
  have hview : rfcSegmentsView "/%2e%2e" = .ok [".."] := by decide +kernel
  have hcall : (HttpRouter.empty : HttpRouter Nat).insertCall rfcSegmentsView "/%2e%2e" (some 1) =
      (.ok (), ⟨HttpRouter.empty.root.insert 1 [".."]⟩) := by
    unfold HttpRouter.insertCall
    rw [hview]
    rfl
  have hfault : DocumentedFault rfcSegmentsView "/%2e%2e" (some 1) :=
    Or.inr (Or.inr (Or.inr ⟨_, hview, by simp⟩))
  have haccepted : ¬ (HttpRouter.empty : HttpRouter Nat).Throws rfcSegmentsView "/%2e%2e"
      (some 1) := by
    rintro ⟨e, he⟩
    rw [hcall] at he
    cases he
  refine ⟨hfault, haccepted, fun hkeys => ?_, fun hdocumented => ?_⟩
  · rw [HttpRouter.insertCalls, hcall] at hkeys
    exact hkeys [".."] rfl (by simp)
  · exact haccepted ((hdocumented.1 _ (List.mem_singleton.mpr rfl) .empty).1.mpr hfault)

/-- `/a..b` has no relative segment, and is refused. -/
theorem inner_dots_refused :
    (HttpRouter.empty : HttpRouter Nat).Throws rfcSegmentsView "/a..b" (some 1) ∧
      ¬ DocumentedFault rfcSegmentsView "/a..b" (some 1) := by
  have hview : rfcSegmentsView "/a..b" = .ok ["a..b"] := by decide +kernel
  refine ⟨(throws_iff _ _ _).mpr (Or.inr (Or.inr (Or.inl ⟨['/', 'a'], ['b'], rfl⟩))), ?_⟩
  rintro (h | h | ⟨e, h⟩ | ⟨segments, h, hmem⟩)
  · cases h
  · exact h rfl
  · rw [hview] at h
    cases h
  · obtain rfl := Except.ok.inj (hview.symm.trans h)
    simp at hmem

end HttpServer
