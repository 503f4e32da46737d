import Mathlib.Data.Fintype.Card
import Mathlib.Data.List.Induction

/-!
# Linked trees in memory

Objects that are allocated, reached through pointers and freed.  A `Heap` holds objects by
address; reading or freeing an address that holds nothing is `none`, so that an access through a
dangling pointer and a second `delete` show.

The pointers of an object are a list of labelled edges (`Linked`).  `follow` walks along labels, and
`IsTree` says that the part of the heap reached from a root is a tree: no pointer dangles, two
label sequences never lead to one object, and the labels of an object differ.

* `IsTree.write`, `IsTree.graft`: writing an object without changing its pointers keeps the tree
  and its positions; linking a new object under a node adds exactly one position.
* `IsTree.card_live`: there are as many objects as positions.
* `destroy_spec`: freeing an object after everything its pointers lead to, as a recursive
  destructor does, frees exactly the tree.
-/

namespace HttpServer

/-- Objects by address.  An address that holds nothing was never allocated or has been freed;
addresses are not used again. -/
structure Heap (α : Type) where
  cells : List (Option α)

/-- Objects whose pointers are known: to each label the address stored under it. -/
class Linked (α : Type) (κ : outParam Type) where
  edges : α → List (κ × Nat)

namespace Heap

variable {α κ : Type}

def empty : Heap α := ⟨[]⟩

/-- The object at an address. -/
def read (h : Heap α) (p : Nat) : Option α := h.cells[p]?.join

/-- The address that the next object gets. -/
def fresh (h : Heap α) : Nat := h.cells.length

/-- Allocate an object at `fresh`. -/
def alloc (h : Heap α) (c : α) : Heap α := ⟨h.cells ++ [some c]⟩

/-- Overwrite the object at an address. -/
def write (h : Heap α) (p : Nat) (c : α) : Heap α := ⟨h.cells.set p (some c)⟩

/-- Free the object at an address; there has to be one. -/
def free (h : Heap α) (p : Nat) : Option (Heap α) :=
  (h.read p).map fun _ => ⟨h.cells.set p none⟩

/-! ## Reading -/

lemma lt_of_read {h : Heap α} {p : Nat} {c : α} (hp : h.read p = some c) : p < h.cells.length := by
  by_contra hlen
  rw [read, List.getElem?_eq_none (Nat.le_of_not_lt hlen)] at hp
  cases hp

@[simp] lemma read_fresh (h : Heap α) : h.read h.fresh = none := by
  rw [read, fresh, List.getElem?_eq_none (Nat.le_refl _)]
  rfl

lemma read_alloc (h : Heap α) (c : α) (q : Nat) :
    (h.alloc c).read q = if q = h.fresh then some c else h.read q := by
  unfold read alloc fresh
  rcases Nat.lt_trichotomy q h.cells.length with hlt | rfl | hgt
  · rw [List.getElem?_append_left hlt, if_neg (Nat.ne_of_lt hlt)]
  · rw [List.getElem?_concat_length, if_pos rfl]
    rfl
  · rw [List.getElem?_eq_none (by simpa using Nat.succ_le_of_lt hgt), if_neg (Nat.ne_of_gt hgt),
      List.getElem?_eq_none (Nat.le_of_lt hgt)]

lemma read_set (h : Heap α) {p : Nat} {c : α} (hp : h.read p = some c) (v : Option α) (q : Nat) :
    (⟨h.cells.set p v⟩ : Heap α).read q = if q = p then v else h.read q := by
  unfold read
  split_ifs with hq
  · subst hq
    rw [List.getElem?_set_self (lt_of_read hp)]
    rfl
  · rw [List.getElem?_set_ne (Ne.symm hq)]

lemma read_write (h : Heap α) {p : Nat} {c : α} (hp : h.read p = some c) (c' : α) (q : Nat) :
    (h.write p c').read q = if q = p then some c' else h.read q := read_set h hp (some c') q

lemma free_of_read (h : Heap α) {p : Nat} {c : α} (hp : h.read p = some c) :
    ∃ h', h.free p = some h' ∧ ∀ q, h'.read q = if q = p then none else h.read q :=
  ⟨_, by rw [free, hp, Option.map_some], read_set h hp none⟩

/-! ## Following labels -/

variable [DecidableEq κ] [Linked α κ]

open Linked (edges)

/-- The address that labels lead to. -/
def follow (h : Heap α) : Nat → List κ → Option Nat
  | p, [] => some p
  | p, k :: ks => (h.read p).bind fun c => ((edges c).lookup k).bind fun q => follow h q ks

@[simp] lemma follow_nil (h : Heap α) (p : Nat) : h.follow p [] = some p := rfl

lemma follow_cons (h : Heap α) (p : Nat) (k : κ) (ks : List κ) :
    h.follow p (k :: ks) =
      (h.read p).bind fun c => ((edges c).lookup k).bind fun q => h.follow q ks := rfl

lemma follow_cons_of_edge {h : Heap α} {p q : Nat} {c : α} {k : κ} (hp : h.read p = some c)
    (hk : (edges c).lookup k = some q) (ks : List κ) :
    h.follow p (k :: ks) = h.follow q ks := by
  rw [follow_cons, hp, Option.bind_some, hk, Option.bind_some]

lemma follow_append (h : Heap α) (ks ls : List κ) :
    ∀ p, h.follow p (ks ++ ls) =
      (h.follow p ks).bind fun q => h.follow q ls := by
  induction ks with
  | nil => exact fun p => rfl
  | cons k ks ih =>
      intro p
      simp only [List.cons_append, follow_cons, Option.bind_assoc, ih]

lemma follow_snoc (h : Heap α) (p : Nat) (ks : List κ) (k : κ) :
    h.follow p (ks ++ [k]) =
      (h.follow p ks).bind fun q => (h.read q).bind fun c => (edges c).lookup k := by
  rw [follow_append]
  congr 1
  funext q
  simp [follow_cons]

/-- Two heaps that agree wherever one of them leads from an address lead to the same. -/
lemma follow_congr {h h' : Heap α} {p : Nat}
    (hread : ∀ ks q, h.follow p ks = some q → h'.read q = h.read q) (ks : List κ) :
    h'.follow p ks = h.follow p ks := by
  induction ks generalizing p with
  | nil => rfl
  | cons k ks ih =>
      rw [follow_cons, follow_cons, hread [] p rfl]
      cases hp : h.read p with
      | none => rfl
      | some c =>
          cases hk : (edges c).lookup k with
          | none => simp [hk]
          | some q =>
              simp only [Option.bind_some, hk]
              exact ih fun ls r hr => hread (k :: ls) r (by rw [follow_cons_of_edge hp hk, hr])

/-! ## Changing an object -/

/-- Writing an object without changing its pointers changes no position. -/
lemma follow_write {h : Heap α} {p : Nat} {c c' : α} (hp : h.read p = some c)
    (hedges : edges c' = edges c) (ks : List κ) :
    ∀ r, (h.write p c').follow r ks = h.follow r ks := by
  induction ks with
  | nil => exact fun r => rfl
  | cons k ks ih =>
      intro r
      rw [follow_cons, follow_cons, read_write h hp]
      split_ifs with hr
      · subst hr
        simp only [hp, Option.bind_some, hedges, ih]
      · simp only [ih]

/-- The heap with a new object `c₀` whose address is stored in the object at `p`. -/
def graft (h : Heap α) (p : Nat) (c₀ c' : α) : Heap α := (h.alloc c₀).write p c'

lemma read_graft {h : Heap α} {p : Nat} {c : α} (hp : h.read p = some c) (c₀ c' : α) (q : Nat) :
    (graft h p c₀ c').read q =
      if q = p then some c' else if q = h.fresh then some c₀ else h.read q := by
  have hfresh : p ≠ h.fresh := by
    rintro rfl
    rw [read_fresh] at hp
    cases hp
  have halloc : (h.alloc c₀).read p = some c := by
    rw [read_alloc, if_neg hfresh, hp]
  rw [graft, read_write _ halloc, read_alloc]

/-! ## Trees -/

/-- What is reached from `root` is a tree. -/
structure IsTree (h : Heap α) (root : Nat) : Prop where
  /-- no pointer dangles -/
  live : ∀ ks p, h.follow root ks = some p → (h.read p).isSome
  /-- no object is reached twice -/
  inj : ∀ ks ks' p, h.follow root ks = some p → h.follow root ks' = some p → ks = ks'
  /-- every pointer is found under its label -/
  distinct : ∀ ks p c, h.follow root ks = some p → h.read p = some c →
    ((edges c).map Prod.fst).Nodup

namespace IsTree

variable {h : Heap α} {root : Nat}

lemma congr (ht : h.IsTree root) {h' : Heap α}
    (hread : ∀ ks q, h.follow root ks = some q → h'.read q = h.read q) :
    h'.IsTree root := by
  have hfollow := follow_congr hread
  constructor
  · intro ks p hp
    rw [hfollow] at hp
    rw [hread ks p hp]
    exact ht.live ks p hp
  · intro ks ks' p hp hp'
    rw [hfollow] at hp hp'
    exact ht.inj ks ks' p hp hp'
  · intro ks p c hp hc
    rw [hfollow] at hp
    rw [hread ks p hp] at hc
    exact ht.distinct ks p c hp hc

/-- The tree below one of its nodes. -/
lemma below (ht : h.IsTree root) {ks : List κ} {p : Nat}
    (hp : h.follow root ks = some p) : h.IsTree p := by
  have hbelow : ∀ ls, h.follow root (ks ++ ls) = h.follow p ls := fun ls => by
    rw [follow_append, hp, Option.bind_some]
  constructor
  · intro ls q hq
    exact ht.live (ks ++ ls) q (by rw [hbelow, hq])
  · intro ls ls' q hq hq'
    exact List.append_cancel_left
      (ht.inj (ks ++ ls) (ks ++ ls') q (by rw [hbelow, hq]) (by rw [hbelow, hq']))
  · intro ls q c hq hc
    exact ht.distinct (ks ++ ls) q c (by rw [hbelow, hq]) hc

/-- A position is shorter than the number of addresses: the nodes on the way differ. -/
lemma length_lt (ht : h.IsTree root) {ks : List κ} {p : Nat}
    (hp : h.follow root ks = some p) : ks.length < h.cells.length := by
  have hway : ∀ i : Fin (ks.length + 1), ∃ q : Fin h.cells.length,
      h.follow root (ks.take i) = some q.val := by
    intro i
    have hsplit := follow_append h (ks.take i) (ks.drop i) root
    rw [List.take_append_drop, hp] at hsplit
    obtain ⟨q, hq, -⟩ := Option.bind_eq_some_iff.mp hsplit.symm
    obtain ⟨c, hc⟩ := Option.isSome_iff_exists.mp (ht.live _ q hq)
    exact ⟨⟨q, lt_of_read hc⟩, hq⟩
  choose f hf using hway
  have hinj : Function.Injective f := by
    intro i j hij
    have hsame := ht.inj _ _ _ (hf i) (by rw [hij]; exact hf j)
    have hlen := congrArg List.length hsame
    rw [List.length_take, List.length_take] at hlen
    exact Fin.ext (by omega)
  have hcard := Fintype.card_le_of_injective f hinj
  rw [Fintype.card_fin, Fintype.card_fin] at hcard
  exact hcard

lemma write (ht : h.IsTree root) {p : Nat} {c c' : α} (hp : h.read p = some c)
    (hedges : edges c' = edges c) : (h.write p c').IsTree root := by
  constructor
  · intro ks q hq
    rw [follow_write hp hedges] at hq
    rw [read_write h hp]
    split_ifs
    · rfl
    · exact ht.live ks q hq
  · intro ks ks' q hq hq'
    rw [follow_write hp hedges] at hq hq'
    exact ht.inj ks ks' q hq hq'
  · intro ks q d hq hd
    rw [follow_write hp hedges] at hq
    rw [read_write h hp] at hd
    split_ifs at hd with hqp
    · subst hqp
      obtain rfl := Option.some.inj hd
      rw [hedges]
      exact ht.distinct ks q c hq hp
    · exact ht.distinct ks q d hq hd

/-- The address of a new object is nowhere in the tree. -/
lemma follow_ne_fresh (ht : h.IsTree root) {ks : List κ} :
    h.follow root ks ≠ some h.fresh := by
  intro hks
  have hlive := ht.live ks _ hks
  rw [read_fresh] at hlive
  cases hlive

/-- **One position more.** -/
theorem follow_graft (ht : h.IsTree root) (c₀ c' : α) {pos : List κ} {p : Nat} {c : α} {k : κ}
    (hpos : h.follow root pos = some p) (hp : h.read p = some c)
    (hk : (edges c).lookup k = none) (hleaf : edges c₀ = [])
    (hedges : edges c' = edges c ++ [(k, h.fresh)]) (ks : List κ) :
    (graft h p c₀ c').follow root ks =
      if ks = pos ++ [k] then some h.fresh else h.follow root ks := by
  have hfresh : h.fresh ≠ p := by
    rintro rfl
    exact ht.follow_ne_fresh hpos
  induction ks using List.reverseRecOn with
  | nil =>
      rw [if_neg (by simp)]
      rfl
  | append_singleton ks x ih =>
      rw [follow_snoc, follow_snoc, ih]
      split_ifs with hks hlast hlast
      · -- below the new object there is nothing
        rw [hks] at hlast
        simp at hlast
      · have hnew : (graft h p c₀ c').read h.fresh = some c₀ := by
          rw [read_graft hp, if_neg hfresh, if_pos rfl]
        simp only [hks, follow_snoc, hpos, hp, hk, hnew, hleaf, Option.bind_some,
          Option.bind_none, List.lookup_nil]
      · obtain ⟨rfl, hx⟩ := List.append_inj' hlast rfl
        obtain rfl := (List.cons.inj hx).1
        rw [hpos, Option.bind_some, read_graft hp, if_pos rfl, Option.bind_some, hedges,
          List.lookup_append, hk]
        simp
      · cases hq : h.follow root ks with
        | none => rfl
        | some q =>
            rw [Option.bind_some, Option.bind_some, read_graft hp]
            by_cases hqp : q = p
            · subst hqp
              obtain rfl := ht.inj _ _ _ hq hpos
              have hx : (x == k) = false := by simpa using hlast
              rw [if_pos rfl, Option.bind_some, hp, Option.bind_some, hedges, List.lookup_append]
              rw [List.lookup_cons, hx, List.lookup_nil, Option.or_none]
            · have hqf : q ≠ h.fresh := by
                rintro rfl
                exact ht.follow_ne_fresh hq
              rw [if_neg hqp, if_neg hqf]

/-- **The tree stays a tree.** -/
theorem graft_isTree (ht : h.IsTree root) (c₀ c' : α) {pos : List κ} {p : Nat} {c : α} {k : κ}
    (hpos : h.follow root pos = some p) (hp : h.read p = some c)
    (hk : (edges c).lookup k = none) (hleaf : edges c₀ = [])
    (hedges : edges c' = edges c ++ [(k, h.fresh)]) : (graft h p c₀ c').IsTree root := by
  have hfollow := ht.follow_graft c₀ c' hpos hp hk hleaf hedges
  constructor
  · intro ks q hq
    rw [hfollow] at hq
    rw [read_graft hp]
    by_cases hqp : q = p
    · rw [if_pos hqp]
      rfl
    rw [if_neg hqp]
    split_ifs at hq with hks
    · rw [if_pos (Option.some.inj hq).symm]
      rfl
    · split_ifs
      · rfl
      · exact ht.live ks q hq
  · intro ks ks' q hq hq'
    rw [hfollow] at hq hq'
    split_ifs at hq hq' with hks hks' hks'
    · rw [hks, hks']
    · rw [← Option.some.inj hq] at hq'
      exact absurd hq' ht.follow_ne_fresh
    · rw [← Option.some.inj hq'] at hq
      exact absurd hq ht.follow_ne_fresh
    · exact ht.inj ks ks' q hq hq'
  · intro ks q d hq hd
    rw [hfollow] at hq
    rw [read_graft hp] at hd
    split_ifs at hq with hks
    · -- the new object has no pointers
      have hqp : q ≠ p := by
        rintro rfl
        rw [← Option.some.inj hq] at hpos
        exact ht.follow_ne_fresh hpos
      rw [if_neg hqp, if_pos (Option.some.inj hq).symm] at hd
      rw [← Option.some.inj hd, hleaf]
      exact List.nodup_nil
    · have hqf : q ≠ h.fresh := by
        rintro rfl
        exact ht.follow_ne_fresh hq
      split_ifs at hd with hqp
      · subst hqp
        rw [← Option.some.inj hd, hedges, List.map_append, List.map_cons, List.map_nil]
        refine List.Nodup.append (ht.distinct ks q c hq hp) (List.nodup_singleton _) ?_
        intro x hx hx'
        obtain rfl := List.mem_singleton.mp hx'
        obtain ⟨e, he, rfl⟩ := List.mem_map.mp hx
        have hnone := List.lookup_eq_none_iff.mp hk e he
        simp at hnone
      · exact ht.distinct ks q d hq hd

end IsTree

/-! ## Objects and positions -/

/-- What is reached from an address. -/
def Below (h : Heap α) (p q : Nat) : Prop :=
  ∃ ks, h.follow p ks = some q

/-- The addresses of the objects that are there. -/
def live (h : Heap α) : Finset Nat :=
  (Finset.range h.cells.length).filter fun p => (h.read p).isSome

lemma mem_live {h : Heap α} {p : Nat} : p ∈ h.live ↔ (h.read p).isSome := by
  simp only [live, Finset.mem_filter, Finset.mem_range, and_iff_right_iff_imp]
  intro hp
  obtain ⟨c, hc⟩ := Option.isSome_iff_exists.mp hp
  exact lt_of_read hc

/-- **One object for each position**, in a heap that holds a tree and nothing beside it. -/
theorem IsTree.card_live {h : Heap α} {root : Nat} (ht : h.IsTree root)
    (hcomplete : ∀ p, (h.read p).isSome → h.Below root p) {S : Finset (List κ)}
    (hS : ∀ ks, ks ∈ S ↔ (h.follow root ks).isSome) : h.live.card = S.card := by
  have hpositions : ∀ ks ∈ S, ∃ p, h.follow root ks = some p := fun ks hks =>
    Option.isSome_iff_exists.mp ((hS ks).mp hks)
  have haddress : ∀ ks ∈ S, h.follow root ks = some ((h.follow root ks).getD 0) := by
    intro ks hks
    obtain ⟨p, hp⟩ := hpositions ks hks
    rw [hp, Option.getD_some]
  have hlive : h.live = S.image fun ks => (h.follow root ks).getD 0 := by
    ext p
    rw [mem_live, Finset.mem_image]
    constructor
    · intro hp
      obtain ⟨ks, hks⟩ := hcomplete p hp
      exact ⟨ks, (hS ks).mpr (by simp [hks]), by simp [hks]⟩
    · rintro ⟨ks, hks, rfl⟩
      exact ht.live ks _ (haddress ks hks)
  rw [hlive]
  refine Finset.card_image_of_injOn fun ks hks ks' hks' hsame => ?_
  exact ht.inj ks ks' _ (haddress ks hks) (hsame ▸ haddress ks' hks')

/-! ## Destroying a tree -/

lemma lookup_of_mem {l : List (κ × Nat)} (hl : (l.map Prod.fst).Nodup) {e : κ × Nat} (he : e ∈ l) :
    l.lookup e.1 = some e.2 := by
  induction l with
  | nil => cases he
  | cons x l ih =>
      rcases x with ⟨k, q⟩
      rw [List.map_cons, List.nodup_cons] at hl
      rcases List.mem_cons.mp he with rfl | he
      · rw [List.lookup_cons_self]
      · have hne : (e.1 == k) = false := by
          rw [beq_eq_false_iff_ne]
          intro h
          exact hl.1 (List.mem_map.mpr ⟨e, he, h⟩)
        rw [List.lookup_cons, hne]
        exact ih hl.2 he

lemma mem_of_lookup {l : List (κ × Nat)} {k : κ} {q : Nat} (h : l.lookup k = some q) :
    (k, q) ∈ l := by
  obtain ⟨l₁, l₂, rfl, -⟩ := List.lookup_eq_some_iff.mp h
  simp

/-- Between the two heaps exactly the addresses in `S` were freed. -/
structure Freed (h h' : Heap α) (S : Nat → Prop) : Prop where
  gone : ∀ q, S q → h'.read q = none
  kept : ∀ q, ¬ S q → h'.read q = h.read q

/-- A destructor that destroys what the pointers of the object lead to, one after the other, and
then frees the object.  The fuel bounds the depth of the recursion. -/
def destroy : Nat → Heap α → Nat → Option (Heap α)
  | 0, _, _ => none
  | fuel + 1, h, p =>
      (h.read p).bind fun c =>
        (((edges c).map Prod.snd).foldlM (fun h q => destroy fuel h q) h).bind fun h => h.free p

/-- An object and what its pointers lead to. -/
lemma below_iff {h : Heap α} {p : Nat} {c : α} (hp : h.read p = some c)
    (hdistinct : ((edges c).map Prod.fst).Nodup) (q : Nat) :
    h.Below p q ↔ q = p ∨ ∃ e ∈ edges c, h.Below e.2 q := by
  constructor
  · rintro ⟨ks, hks⟩
    rcases ks with _ | ⟨k, ks⟩
    · exact Or.inl (Option.some.inj hks).symm
    · rw [follow_cons, hp, Option.bind_some] at hks
      obtain ⟨r, hr, hks⟩ := Option.bind_eq_some_iff.mp hks
      exact Or.inr ⟨(k, r), mem_of_lookup hr, ks, hks⟩
  · rintro (rfl | ⟨e, he, ks, hks⟩)
    · exact ⟨[], rfl⟩
    · exact ⟨e.1 :: ks, by rw [follow_cons_of_edge hp (lookup_of_mem hdistinct he), hks]⟩

/-- The loop over the pointers of an object, for a destructor that works on what they lead to. -/
lemma foldlM_destroy {h : Heap α} {p : Nat} {c : α} (ht : h.IsTree p)
    (hp : h.read p = some c) {d : Heap α → Nat → Option (Heap α)}
    (hd : ∀ (g : Heap α) (e : κ × Nat), e ∈ edges c →
      (∀ q, h.Below e.2 q → g.read q = h.read q) →
      ∃ g', d g e.2 = some g' ∧ Freed g g' (h.Below e.2)) :
    ∀ es : List (κ × Nat), (∀ e ∈ es, e ∈ edges c) → (es.map Prod.fst).Nodup →
      ∀ g : Heap α, (∀ q, (∃ e ∈ es, h.Below e.2 q) → g.read q = h.read q) →
        ∃ g', (es.map Prod.snd).foldlM d g = some g' ∧
          Freed g g' fun q => ∃ e ∈ es, h.Below e.2 q := by
  have hdistinct := ht.distinct [] p c rfl hp
  intro es
  induction es with
  | nil => exact fun _ _ g _ => ⟨g, rfl, by simp, by simp⟩
  | cons e es ih =>
      intro hsub hnodup g hg
      rw [List.map_cons, List.nodup_cons] at hnodup
      obtain ⟨g₁, hg₁, hfreed₁⟩ := hd g e (hsub e (by simp)) fun q hq => hg q ⟨e, by simp, hq⟩
      -- what two different pointers lead to is disjoint
      have hdisjoint : ∀ q, (∃ e' ∈ es, h.Below e'.2 q) → ¬ h.Below e.2 q := by
        rintro q ⟨e', he', ks', hks'⟩ ⟨ks, hks⟩
        have hq := follow_cons_of_edge hp (lookup_of_mem hdistinct (hsub e (by simp))) ks
        have hq' := follow_cons_of_edge hp
          (lookup_of_mem hdistinct (hsub e' (List.mem_cons_of_mem e he'))) ks'
        have hsame := ht.inj _ _ q (hq.trans hks) (hq'.trans hks')
        exact hnodup.1 ((List.cons.inj hsame).1 ▸ List.mem_map_of_mem he')
      obtain ⟨g', hg', hfreed⟩ := ih (fun e' he' => hsub e' (List.mem_cons_of_mem e he')) hnodup.2
        g₁ fun q hq => by
          obtain ⟨e', he', hbelow⟩ := hq
          rw [hfreed₁.kept q (hdisjoint q ⟨e', he', hbelow⟩)]
          exact hg q ⟨e', List.mem_cons_of_mem e he', hbelow⟩
      refine ⟨g', ?_, ?_, ?_⟩
      · rw [List.map_cons, List.foldlM_cons, hg₁]
        exact hg'
      · rintro q ⟨e', he', hbelow⟩
        by_cases hrest : ∃ e' ∈ es, h.Below e'.2 q
        · exact hfreed.gone q hrest
        · rw [hfreed.kept q hrest]
          rcases List.mem_cons.mp he' with rfl | he'
          · exact hfreed₁.gone q hbelow
          · exact absurd ⟨e', he', hbelow⟩ hrest
      · intro q hq
        rw [hfreed.kept q fun ⟨e', he', hbelow⟩ => hq ⟨e', List.mem_cons_of_mem e he', hbelow⟩]
        exact hfreed₁.kept q fun hbelow => hq ⟨e, by simp, hbelow⟩

/-- **A recursive destructor frees exactly the tree**: every object once, and nothing else. -/
theorem destroy_spec : ∀ (fuel : Nat) (h : Heap α) (p : Nat), h.IsTree p →
    (∀ ks q, h.follow p ks = some q → ks.length < fuel) →
    ∃ h', destroy fuel h p = some h' ∧ Freed h h' (h.Below p) := by
  intro fuel
  induction fuel with
  | zero => exact fun h p _ hdeep => absurd (hdeep [] p rfl) (Nat.not_lt_zero _)
  | succ fuel ih =>
      intro h p ht hdeep
      obtain ⟨c, hp⟩ := Option.isSome_iff_exists.mp (ht.live [] p rfl)
      have hdistinct := ht.distinct [] p c rfl hp
      have hchild : ∀ (g : Heap α) (e : κ × Nat), e ∈ edges c →
          (∀ q, h.Below e.2 q → g.read q = h.read q) →
          ∃ g', destroy fuel g e.2 = some g' ∧ Freed g g' (h.Below e.2) := by
        intro g e he hg
        have hfollow := follow_cons_of_edge hp (lookup_of_mem hdistinct he)
        have hsame := follow_congr fun ks q hq => hg q ⟨ks, hq⟩
        have hbelow : g.Below e.2 = h.Below e.2 := by
          funext q
          simp only [Below, hsame]
        have htree : g.IsTree e.2 :=
          (ht.below (hfollow [])).congr fun ks q hq => hg q ⟨ks, hq⟩
        have hdeep' : ∀ ks q, g.follow e.2 ks = some q → ks.length < fuel := by
          intro ks q hq
          rw [hsame, ← hfollow] at hq
          exact Nat.lt_of_succ_lt_succ (hdeep _ q hq)
        obtain ⟨g', hg', hfreed⟩ := ih g e.2 htree hdeep'
        exact ⟨g', hg', hbelow ▸ hfreed⟩
      obtain ⟨g, hg, hfreed⟩ := foldlM_destroy ht hp hchild (edges c) (fun _ he => he) hdistinct h
        fun _ _ => rfl
      -- the object itself is still there
      have hself : ¬ ∃ e ∈ edges c, h.Below e.2 p := by
        rintro ⟨e, he, ks, hks⟩
        have hq := follow_cons_of_edge hp (lookup_of_mem hdistinct he) ks
        cases ht.inj [] _ p rfl (hq.trans hks)
      obtain ⟨h', hh', hread⟩ := free_of_read g ((hfreed.kept p hself).trans hp)
      refine ⟨h', ?_, ?_, ?_⟩
      · rw [destroy, hp, Option.bind_some, hg, Option.bind_some, hh']
      · intro q hq
        rw [hread]
        split_ifs with hqp
        · rfl
        · exact hfreed.gone q (((below_iff hp hdistinct q).mp hq).resolve_left hqp)
      · intro q hq
        rw [below_iff hp hdistinct, not_or] at hq
        rw [hread, if_neg hq.1]
        exact hfreed.kept q hq.2

end Heap

end HttpServer
