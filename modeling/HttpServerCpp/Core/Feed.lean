import Mathlib.Data.List.Basic

/-!
# Parsers that are fed

A parser that is handed one symbol at a time, keeps what it needs in its state and may fail at any
symbol.  `Finishes s bs t` says that from state `s` exactly the symbols `bs` bring it to its end,
in state `t`.

* `finishes_counted` and `finishes_terminated` are the two ways in which such a parser delimits a
  section: by a number of symbols and by a symbol that ends it.  Each says which texts finish from
  the beginning of the section in terms of those that finish from its end, so that the language of
  a parser is read off its sections, last to first.
-/

namespace HttpServer

variable {σ β ε : Type}

/-- Hand over one symbol after another. -/
def feed (process : σ → β → Except ε σ) : σ → List β → Except ε σ
  | s, [] => .ok s
  | s, b :: bs =>
      match process s b with
      | .ok t => feed process t bs
      | .error e => .error e

variable {process : σ → β → Except ε σ} {done : σ → Prop} {s t : σ}

lemma feed_cons_of_ok {b : β} (h : process s b = .ok t) (bs : List β) :
    feed process s (b :: bs) = feed process t bs := by
  simp [feed, h]

lemma feed_cons_of_error {b : β} {e : ε} (h : process s b = .error e) (bs : List β) :
    feed process s (b :: bs) = .error e := by
  simp [feed, h]

lemma feed_append_of_ok {bs : List β} (h : feed process s bs = .ok t) (bs' : List β) :
    feed process s (bs ++ bs') = feed process t bs' := by
  induction bs generalizing s with
  | nil =>
      obtain rfl := Except.ok.inj h
      rfl
  | cons b bs ih =>
      cases hb : process s b with
      | ok u =>
          rw [feed_cons_of_ok hb] at h
          rw [List.cons_append, feed_cons_of_ok hb, ih h]
      | error e => simp [feed, hb] at h

/-- The symbols bring the parser to its end. -/
def Finishes (process : σ → β → Except ε σ) (done : σ → Prop) (s : σ) (bs : List β) (t : σ) :
    Prop :=
  feed process s bs = .ok t ∧ done t

/-- At its end a parser that refuses everything has finished. -/
lemma finishes_done (hdone : done s) (hrefuses : ∀ b, ∃ e, process s b = .error e)
    (bs : List β) : Finishes process done s bs t ↔ bs = [] ∧ t = s := by
  cases bs with
  | nil =>
      constructor
      · rintro ⟨hfed, -⟩
        exact ⟨rfl, (Except.ok.inj hfed).symm⟩
      · rintro ⟨-, rfl⟩
        exact ⟨rfl, hdone⟩
  | cons b bs =>
      obtain ⟨e, he⟩ := hrefuses b
      simp [Finishes, feed_cons_of_error he]

lemma not_finishes_nil (hnot : ¬ done s) : ¬ Finishes process done s [] t := by
  rintro ⟨hfed, hdone⟩
  obtain rfl := Except.ok.inj hfed
  exact hnot hdone

lemma finishes_cons {b : β} {bs : List β} :
    Finishes process done s (b :: bs) t ↔
      ∃ u, process s b = .ok u ∧ Finishes process done u bs t := by
  unfold Finishes
  cases hb : process s b with
  | ok u => simp [feed_cons_of_ok hb]
  | error e => simp [feed_cons_of_error hb]

/-- A symbol of any kind, kept in the state. -/
lemma finishes_any {next : β → σ} (hnot : ¬ done s) (hstep : ∀ b, process s b = .ok (next b))
    (bs : List β) :
    Finishes process done s bs t ↔ ∃ b rest, bs = b :: rest ∧
      Finishes process done (next b) rest t := by
  cases bs with
  | nil => simpa using not_finishes_nil hnot
  | cons b bs => simp [finishes_cons, hstep]

/-- One symbol and no other. -/
lemma finishes_literal [DecidableEq β] {expected : β} {next : σ} {e : ε} (hnot : ¬ done s)
    (hstep : ∀ b, process s b = if b = expected then .ok next else .error e) (bs : List β) :
    Finishes process done s bs t ↔ ∃ rest, bs = expected :: rest ∧
      Finishes process done next rest t := by
  cases bs with
  | nil => simpa using not_finishes_nil hnot
  | cons b bs =>
      rw [finishes_cons, hstep]
      split_ifs with hb
      · simp [hb]
      · simp [hb]

/-- A parser that insists on one symbol fails there or further on. -/
lemma feed_literal_error [DecidableEq β] {expected : β} {next : σ} {objection e : ε}
    (hstep : ∀ b, process s b = if b ≠ expected then .error objection else .ok next)
    (bs : List β) :
    feed process s bs = .error e ↔
      (e = objection ∧ ∃ b rest, bs = b :: rest ∧ b ≠ expected) ∨
      ∃ rest, bs = expected :: rest ∧ feed process next rest = .error e := by
  cases bs with
  | nil => simp [feed]
  | cons b bs =>
      by_cases hb : b = expected
      · have hok : process s b = .ok next := (hstep b).trans (if_neg (not_not.mpr hb))
        rw [feed_cons_of_ok hok]
        simp [hb]
      · have hrefused : process s b = .error objection := (hstep b).trans (if_pos hb)
        rw [feed_cons_of_error hrefused]
        simp [hb, @eq_comm _ objection e]

/-- A section of `n` symbols, from its middle.  `stage xs` is the state after the symbols `xs`. -/
lemma finishes_counted_from {n : Nat} {stage : List β → σ}
    (hnot : ∀ xs, xs.length < n → ¬ done (stage xs))
    (hstep : ∀ xs b, xs.length < n → process (stage xs) b = .ok (stage (xs ++ [b]))) :
    ∀ (bs xs : List β), xs.length ≤ n →
      (Finishes process done (stage xs) bs t ↔ ∃ ys rest, bs = ys ++ rest ∧
        (xs ++ ys).length = n ∧ Finishes process done (stage (xs ++ ys)) rest t) := by
  intro bs
  induction bs with
  | nil =>
      intro xs hxs
      constructor
      · intro h
        have hfull : xs.length = n := by
          by_contra hne
          exact not_finishes_nil (hnot xs (by omega)) h
        exact ⟨[], [], rfl, by simpa using hfull, by simpa using h⟩
      · rintro ⟨ys, rest, hnil, -, h⟩
        obtain ⟨rfl, rfl⟩ := List.append_eq_nil_iff.mp hnil.symm
        simpa using h
  | cons b bs ih =>
      intro xs hxs
      by_cases hfull : xs.length = n
      · -- the section is over, so none of the symbols belongs to it
        constructor
        · intro h
          exact ⟨[], b :: bs, rfl, by simpa using hfull, by simpa using h⟩
        · rintro ⟨ys, rest, hsplit, hlength, h⟩
          have hys : ys = [] := by
            rw [List.length_append] at hlength
            exact List.length_eq_zero_iff.mp (by omega)
          subst hys
          rw [List.nil_append] at hsplit
          rw [hsplit]
          simpa using h
      · have hlt : xs.length < n := by omega
        have hnext := ih (xs ++ [b]) (by simp; omega)
        rw [finishes_cons]
        constructor
        · rintro ⟨u, hu, h⟩
          rw [hstep xs b hlt] at hu
          obtain rfl := Except.ok.inj hu
          obtain ⟨ys, rest, rfl, hlength, hrest⟩ := hnext.mp h
          exact ⟨b :: ys, rest, rfl, by simpa using hlength, by simpa using hrest⟩
        · rintro ⟨ys, rest, hsplit, hlength, h⟩
          cases ys with
          | nil => simp [hfull] at hlength
          | cons c ys =>
              obtain ⟨rfl, rfl⟩ := List.cons.inj hsplit
              exact ⟨_, hstep xs b hlt, hnext.mpr ⟨ys, rest, rfl, by simpa using hlength,
                by simpa using h⟩⟩

/-- **A section of `n` symbols.**  It leaves the state `final xs` behind. -/
theorem finishes_counted {n : Nat} {stage final : List β → σ}
    (hnot : ∀ xs, xs.length < n → ¬ done (stage xs))
    (hstep : ∀ xs b, xs.length < n → process (stage xs) b = .ok (stage (xs ++ [b])))
    (hfinal : ∀ xs, xs.length = n → stage xs = final xs) (bs : List β) :
    Finishes process done (stage []) bs t ↔ ∃ xs rest, bs = xs ++ rest ∧ xs.length = n ∧
      Finishes process done (final xs) rest t := by
  rw [finishes_counted_from hnot hstep bs [] (Nat.zero_le n)]
  simp only [List.nil_append]
  constructor
  · rintro ⟨xs, rest, rfl, hlength, hrest⟩
    exact ⟨xs, rest, rfl, hlength, hfinal xs hlength ▸ hrest⟩
  · rintro ⟨xs, rest, rfl, hlength, hrest⟩
    exact ⟨xs, rest, rfl, hlength, (hfinal xs hlength).symm ▸ hrest⟩

/-- A section that a symbol ends, from its middle.  `next xs` is the state after the symbol. -/
lemma finishes_terminated_from [DecidableEq β] {stop : β} {stage next : List β → σ}
    (hnot : ∀ xs, ¬ done (stage xs))
    (hstep : ∀ xs b, process (stage xs) b = .ok (if b = stop then next xs else stage (xs ++ [b]))) :
    ∀ (bs xs : List β),
      (Finishes process done (stage xs) bs t ↔ ∃ ys rest, bs = ys ++ stop :: rest ∧
        stop ∉ ys ∧ Finishes process done (next (xs ++ ys)) rest t) := by
  intro bs
  induction bs with
  | nil =>
      intro xs
      simpa using not_finishes_nil (hnot xs)
  | cons b bs ih =>
      intro xs
      have hone := hstep xs b
      rw [finishes_cons]
      by_cases hb : b = stop
      · subst hb
        rw [if_pos rfl] at hone
        constructor
        · rintro ⟨u, hu, h⟩
          rw [hone] at hu
          obtain rfl := Except.ok.inj hu
          exact ⟨[], bs, rfl, by simp, by simpa using h⟩
        · rintro ⟨ys, rest, hsplit, hys, h⟩
          cases ys with
          | nil =>
              obtain ⟨-, rfl⟩ := List.cons.inj hsplit
              exact ⟨_, hone, by simpa using h⟩
          | cons c ys =>
              obtain ⟨rfl, -⟩ := List.cons.inj hsplit
              simp at hys
      · rw [if_neg hb] at hone
        constructor
        · rintro ⟨u, hu, h⟩
          rw [hone] at hu
          obtain rfl := Except.ok.inj hu
          obtain ⟨ys, rest, rfl, hys, hrest⟩ := (ih (xs ++ [b])).mp h
          refine ⟨b :: ys, rest, rfl, ?_, by simpa using hrest⟩
          rw [List.mem_cons, not_or]
          exact ⟨fun heq => hb heq.symm, hys⟩
        · rintro ⟨ys, rest, hsplit, hys, h⟩
          cases ys with
          | nil =>
              obtain ⟨heq, -⟩ := List.cons.inj hsplit
              exact absurd heq hb
          | cons c ys =>
              obtain ⟨rfl, rfl⟩ := List.cons.inj hsplit
              rw [List.mem_cons, not_or] at hys
              exact ⟨_, hone, (ih (xs ++ [b])).mpr ⟨ys, rest, rfl, hys.2, by simpa using h⟩⟩

/-- **A section that a symbol ends.** -/
theorem finishes_terminated [DecidableEq β] {stop : β} {stage next : List β → σ}
    (hnot : ∀ xs, ¬ done (stage xs))
    (hstep : ∀ xs b, process (stage xs) b = .ok (if b = stop then next xs else stage (xs ++ [b])))
    (bs : List β) :
    Finishes process done (stage []) bs t ↔ ∃ xs rest, bs = xs ++ stop :: rest ∧ stop ∉ xs ∧
      Finishes process done (next xs) rest t := by
  rw [finishes_terminated_from hnot hstep bs []]
  simp only [List.nil_append]

end HttpServer
