import Mathlib.Data.List.Perm.Basic
import HttpServerCpp.Router.Registrations

/-!
# The order of registrations

Handlers are registered one call after the other, and the tree that results depends on the order
of the calls.  What `search` answers does not: it depends on the last handler of each key alone.

* `search_of_latest`: two routers with the same last handlers answer every query alike.
* `search_of_perm`: so routers built from the same calls in different orders do, when all keys are
  different.
-/

namespace HttpServer

variable {T : Type}

/-- The positions of the tree are determined by the keys that have a handler. -/
lemma onPath_of_latest {regs regs' : List (List String × T)}
    (h : ∀ key, latest regs key = latest regs' key) (m : List String) :
    OnPath regs m ↔ OnPath regs' m := by
  have hregistered : ∀ key, Registered regs key ↔ Registered regs' key := fun key => by
    rw [← latest_isSome, h, latest_isSome]
  have hpath : ∀ l : List (List String × T), OnPath l m ↔ ∃ key, Registered l key ∧ m <+: key := by
    intro l
    constructor
    · rintro ⟨r, hr, hm⟩
      exact ⟨r.1, ⟨r, hr, rfl⟩, hm⟩
    · rintro ⟨key, ⟨r, hr, rfl⟩, hm⟩
      exact ⟨r, hr, hm⟩
  rw [hpath, hpath]
  exact exists_congr fun key => and_congr_left fun _ => hregistered key

/-- Two trees of registrations with the same last handlers give the same answers. -/
lemma Represents.searchSegments_congr {r r' : HttpRouter T} {regs regs' : List (List String × T)}
    (hr : Represents r regs) (hr' : Represents r' regs')
    (hlatest : ∀ key, latest regs key = latest regs' key) (segments : List String) :
    r.searchSegments segments = r'.searchSegments segments := by
  obtain ⟨m, hm⟩ := exists_stopsAt regs segments
  have hm' : StopsAt regs' segments m :=
    hm.congr fun p _ => or_congr_right (onPath_of_latest hlatest p)
  rw [searchSegments_eq hr hm, searchSegments_eq hr' hm', hlatest, hlatest]

/-- An accepted sequence of calls represents its registrations. -/
lemma represents_calls {segmentsView : String → Except String (List String)}
    {calls : List (String × T)} {r : HttpRouter T}
    (hr : HttpRouter.empty.insertAll segmentsView calls = .ok r) :
    Represents r (calls.map (registration segmentsView)) := by
  simpa using represents_insertAll calls _ r [] represents_empty hr

/-- Registrations under different keys may be reordered. -/
lemma latest_perm {regs regs' : List (List String × T)} (hperm : regs.Perm regs')
    (hdistinct : (regs.map Prod.fst).Nodup) (key : List String) :
    latest regs key = latest regs' key := by
  have hfilter := hperm.filter fun r => decide (r.1 = key)
  have hshort : (regs.filter fun r => decide (r.1 = key)).length ≤ 1 := by
    rw [← List.countP_eq_length_filter]
    calc regs.countP (fun r => decide (r.1 = key))
        = (regs.map Prod.fst).count key := by
          rw [List.count, List.countP_map]
          refine List.countP_congr fun r _ => ?_
          simp
      _ ≤ 1 := List.nodup_iff_count_le_one.mp hdistinct key
  unfold latest
  congr 2
  rcases hregs : regs.filter (fun r => decide (r.1 = key)) with _ | ⟨a, _ | ⟨b, rest⟩⟩
  · rw [hregs] at hfilter
    exact hregs.trans (List.nil_perm.mp hfilter).symm
  · rw [hregs] at hfilter
    exact hregs.trans (List.singleton_perm.mp hfilter)
  · rw [hregs] at hshort
    simp at hshort

/-- **The order of registrations does not matter** when no key is registered twice. -/
theorem search_of_perm (segmentsView : String → Except String (List String))
    (calls calls' : List (String × T)) (r r' : HttpRouter T) (hperm : calls.Perm calls')
    (hdistinct : ((calls.map (registration segmentsView)).map Prod.fst).Nodup)
    (hr : HttpRouter.empty.insertAll segmentsView calls = .ok r)
    (hr' : HttpRouter.empty.insertAll segmentsView calls' = .ok r') (segments : List String) :
    r.searchSegments segments = r'.searchSegments segments :=
  (represents_calls hr).searchSegments_congr (represents_calls hr')
    (latest_perm (hperm.map (registration segmentsView)) hdistinct) segments

end HttpServer
