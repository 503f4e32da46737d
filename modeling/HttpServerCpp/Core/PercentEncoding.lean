import Mathlib.Data.List.Basic

/-!
# Percent-encoding

Texts in which a character may be written as `%` and two hexadecimal digits.

* `PctEncoded` is the grammar: ordinary characters and complete escapes.
* `percentDecode` reads such a text; what an ordinary character stands for is a parameter, so that
  `+` may be read as a blank.  `percentDecode_isSome` says that it accepts the grammar.
* `escapeWith` writes one character as its escape wherever it occurs.  `percentDecode_escapeWith`:
  decoding the result is decoding the text itself with that character ordinary, also where the
  text is not well-formed.
* Splitting at a separator and cutting at its first occurrence commute with escaping
  (`splitOn_escapeWith`, `cut_escapeWith`), and a text is well-formed when its parts are
  (`pctEncoded_splitOn`, `pctEncoded_cut`).
-/

namespace HttpServer

/-- The value of a hexadecimal digit. -/
def hexValue (c : Char) : Option Nat :=
  if '0' ≤ c ∧ c ≤ '9' then some (c.toNat - 48)
  else if 'a' ≤ c ∧ c ≤ 'f' then some (c.toNat - 87)
  else if 'A' ≤ c ∧ c ≤ 'F' then some (c.toNat - 55)
  else none

/-- The character that two digits stand for. -/
def escaped (hi lo : Char) : Option Char :=
  (hexValue hi).bind fun a => (hexValue lo).map fun b => Char.ofNat (16 * a + b)

/-- Ordinary characters and escapes. -/
inductive PctEncoded (ordinary : Char → Prop) : List Char → Prop
  | nil : PctEncoded ordinary []
  | plain (c : Char) (rest : List Char) (hc : c ≠ '%') (hordinary : ordinary c)
      (hrest : PctEncoded ordinary rest) : PctEncoded ordinary (c :: rest)
  | escape (hi lo : Char) (rest : List Char) (hdigits : (escaped hi lo).isSome)
      (hrest : PctEncoded ordinary rest) : PctEncoded ordinary ('%' :: hi :: lo :: rest)

/-- What a text stands for, when `plain` says what its ordinary characters stand for. -/
def percentDecode (plain : Char → Option Char) : List Char → Option (List Char)
  | [] => some []
  | c :: rest =>
      if c = '%' then
        match rest with
        | hi :: lo :: rest => (escaped hi lo).bind fun d => (percentDecode plain rest).map (d :: ·)
        | _ => none
      else (plain c).bind fun d => (percentDecode plain rest).map (d :: ·)

section Decode

variable {plain : Char → Option Char}

lemma percentDecode_plain {c : Char} (hc : c ≠ '%') (rest : List Char) :
    percentDecode plain (c :: rest) =
      (plain c).bind fun d => (percentDecode plain rest).map (d :: ·) := by
  rw [percentDecode.eq_def]
  simp only [if_neg hc]

lemma percentDecode_escape (hi lo : Char) (rest : List Char) :
    percentDecode plain ('%' :: hi :: lo :: rest) =
      (escaped hi lo).bind fun d => (percentDecode plain rest).map (d :: ·) := by
  rw [percentDecode.eq_def]
  simp only [if_pos]

lemma percentDecode_lone : percentDecode plain ['%'] = none := rfl

lemma percentDecode_digit (a : Char) : percentDecode plain ['%', a] = none := rfl

end Decode

/-- The ways a text can begin. -/
@[elab_as_elim]
theorem text_induction {P : List Char → Prop} (nil : P [])
    (plain : ∀ c rest, c ≠ '%' → P rest → P (c :: rest))
    (escape : ∀ hi lo rest, P rest → P ('%' :: hi :: lo :: rest))
    (lone : P ['%']) (digit : ∀ a, P ['%', a]) : ∀ t, P t
  | [] => nil
  | c :: rest => by
      by_cases hc : c = '%'
      · subst hc
        match rest with
        | [] => exact lone
        | [a] => exact digit a
        | hi :: lo :: rest =>
            exact escape hi lo rest (text_induction nil plain escape lone digit rest)
      · exact plain c rest hc (text_induction nil plain escape lone digit rest)

/-! ## The grammar -/

section Grammar

variable {ordinary : Char → Prop}

lemma pctEncoded_plain {c : Char} (hc : c ≠ '%') {rest : List Char} :
    PctEncoded ordinary (c :: rest) ↔ ordinary c ∧ PctEncoded ordinary rest := by
  constructor
  · intro h
    cases h with
    | plain _ _ _ hordinary hrest => exact ⟨hordinary, hrest⟩
    | escape => exact absurd rfl hc
  · rintro ⟨hordinary, hrest⟩
    exact .plain c rest hc hordinary hrest

lemma pctEncoded_escape {hi lo : Char} {rest : List Char} :
    PctEncoded ordinary ('%' :: hi :: lo :: rest) ↔
      (escaped hi lo).isSome ∧ PctEncoded ordinary rest := by
  constructor
  · intro h
    cases h with
    | plain _ _ hc => exact absurd rfl hc
    | escape _ _ _ hdigits hrest => exact ⟨hdigits, hrest⟩
  · rintro ⟨hdigits, hrest⟩
    exact .escape hi lo rest hdigits hrest

lemma not_pctEncoded_lone : ¬ PctEncoded ordinary ['%'] := by
  intro h
  cases h with
  | plain _ _ hc => exact hc rfl

lemma not_pctEncoded_digit (a : Char) : ¬ PctEncoded ordinary ['%', a] := by
  intro h
  cases h with
  | plain _ _ hc => exact hc rfl

/-- **The decoder accepts the grammar.** -/
lemma percentDecode_isSome {plain : Char → Option Char} (t : List Char) :
    (percentDecode plain t).isSome ↔ PctEncoded (fun c => (plain c).isSome) t := by
  induction t using text_induction with
  | nil => simp [percentDecode, PctEncoded.nil]
  | plain c rest hc ih =>
      rw [percentDecode_plain hc, pctEncoded_plain hc, ← ih]
      cases plain c <;> simp
  | escape hi lo rest ih =>
      rw [percentDecode_escape, pctEncoded_escape, ← ih]
      cases escaped hi lo <;> simp
  | lone => simp [percentDecode_lone, not_pctEncoded_lone]
  | digit a => simp [percentDecode_digit, not_pctEncoded_digit]

end Grammar

/-! ## Writing a character as its escape -/

/-- Write every `x` as `%` and the digits `hi` and `lo`. -/
def escapeWith (x hi lo : Char) (t : List Char) : List Char :=
  t.flatMap fun c => if c = x then ['%', hi, lo] else [c]

/-- The digits are those of `x`, which does not occur in escapes itself. -/
structure Escapes (x hi lo : Char) : Prop where
  ne_percent : x ≠ '%'
  not_digit : hexValue x = none
  reads : escaped hi lo = some x

section Escaping

variable {x hi lo : Char}

lemma escapeWith_cons_self (rest : List Char) :
    escapeWith x hi lo (x :: rest) = '%' :: hi :: lo :: escapeWith x hi lo rest := by
  simp [escapeWith]

lemma escapeWith_cons_ne {c : Char} (hc : c ≠ x) (rest : List Char) :
    escapeWith x hi lo (c :: rest) = c :: escapeWith x hi lo rest := by
  simp [escapeWith, hc]

lemma escaped_of_left {a : Char} (h : hexValue a = none) (b : Char) : escaped a b = none := by
  rw [escaped, h]
  rfl

lemma escaped_of_right (a : Char) {b : Char} (h : hexValue b = none) : escaped a b = none := by
  rw [escaped, h]
  cases hexValue a <;> rfl

/-- **Escaping is transparent.** -/
theorem percentDecode_escapeWith (h : Escapes x hi lo) (plain : Char → Option Char)
    (t : List Char) :
    percentDecode plain (escapeWith x hi lo t) =
      percentDecode (fun c => if c = x then some x else plain c) t := by
  have hpercent : hexValue '%' = none := by decide
  have hkeep : '%' ≠ x := h.ne_percent.symm
  induction t using text_induction with
  | nil => rfl
  | plain c rest hc ih =>
      rw [percentDecode_plain hc]
      by_cases hx : c = x
      · subst hx
        rw [escapeWith_cons_self, percentDecode_escape, h.reads, ih, if_pos rfl]
      · rw [escapeWith_cons_ne hx, percentDecode_plain hc, ih, if_neg hx]
  | escape a b rest ih =>
      rw [percentDecode_escape, escapeWith_cons_ne hkeep]
      by_cases ha : a = x
      · -- an escape cannot begin with the escaped character, nor with its `%`
        subst ha
        rw [escapeWith_cons_self, percentDecode_escape, escaped_of_left hpercent,
          escaped_of_left h.not_digit]
        rfl
      · rw [escapeWith_cons_ne ha]
        by_cases hb : b = x
        · subst hb
          rw [escapeWith_cons_self, percentDecode_escape, escaped_of_right a hpercent,
            escaped_of_right a h.not_digit]
          rfl
        · rw [escapeWith_cons_ne hb, percentDecode_escape, ih]
  | lone =>
      rw [escapeWith_cons_ne hkeep]
      rfl
  | digit a =>
      rw [percentDecode_digit, escapeWith_cons_ne hkeep]
      by_cases ha : a = x
      · subst ha
        rw [escapeWith_cons_self, percentDecode_escape, escaped_of_left hpercent]
        rfl
      · rw [escapeWith_cons_ne ha]
        rfl

/-- Escaping goes through splitting. -/
lemma splitOn_escapeWith {sep : Char} (hsep : sep ≠ x ∧ sep ≠ '%' ∧ sep ≠ hi ∧ sep ≠ lo)
    (t : List Char) :
    (escapeWith x hi lo t).splitOn sep = (t.splitOn sep).map (escapeWith x hi lo) := by
  obtain ⟨hx, hpercent, hhi, hlo⟩ := hsep
  induction t with
  | nil => rfl
  | cons c rest ih =>
      by_cases hc : c = x
      · subst hc
        rw [escapeWith_cons_self]
        simp only [List.splitOn_cons_eq_if_modifyHead, beq_iff_eq, hpercent.symm, hhi.symm,
          hlo.symm, hx.symm, if_false, ih]
        cases rest.splitOn sep with
        | nil => rfl
        | cons p ps => simp [escapeWith_cons_self]
      · rw [escapeWith_cons_ne hc]
        simp only [List.splitOn_cons_eq_if_modifyHead, beq_iff_eq, ih]
        split_ifs with hs
        · simp [escapeWith]
        · cases rest.splitOn sep with
          | nil => rfl
          | cons p ps => simp [escapeWith_cons_ne hc]

end Escaping

/-- Pieces put behind a separator each, and pieces joined by it. -/
lemma flatMap_cons_eq (sep : Char) {pieces : List (List Char)} (h : pieces ≠ []) :
    pieces.flatMap (sep :: ·) = sep :: [sep].intercalate pieces := by
  induction pieces with
  | nil => exact absurd rfl h
  | cons p pieces ih =>
      rcases pieces with _ | ⟨q, pieces⟩
      · simp
      · rw [List.flatMap_cons, ih (by simp), List.intercalate_cons_cons]
        simp

/-! ## Cutting at the first separator -/

/-- The text before the first separator, and the text after it if there is one. -/
def cut (sep : Char) : List Char → List Char × Option (List Char)
  | [] => ([], none)
  | c :: rest => if c = sep then ([], some rest) else ((cut sep rest).1.cons c, (cut sep rest).2)

/-- Cutting loses nothing. -/
lemma cut_join (sep : Char) (t : List Char) :
    t = (cut sep t).1 ++ ((cut sep t).2.map (sep :: ·)).getD [] := by
  induction t with
  | nil => rfl
  | cons c rest ih =>
      by_cases hs : c = sep
      · simp [cut, hs]
      · simpa [cut, hs] using ih

lemma cut_of_not_mem {sep : Char} {t : List Char} (h : sep ∉ t) : cut sep t = (t, none) := by
  induction t with
  | nil => rfl
  | cons c rest ih =>
      rw [List.mem_cons, not_or] at h
      simp [cut, Ne.symm h.1, ih h.2]

lemma cut_append {sep : Char} {t : List Char} (h : sep ∉ t) (rest : List Char) :
    cut sep (t ++ sep :: rest) = (t, some rest) := by
  induction t with
  | nil => simp [cut]
  | cons c t ih =>
      rw [List.mem_cons, not_or] at h
      simp [cut, Ne.symm h.1, ih h.2]

lemma cut_escapeWith {x hi lo sep : Char} (hsep : sep ≠ x ∧ sep ≠ '%' ∧ sep ≠ hi ∧ sep ≠ lo)
    (t : List Char) :
    cut sep (escapeWith x hi lo t) =
      (escapeWith x hi lo (cut sep t).1, (cut sep t).2.map (escapeWith x hi lo)) := by
  obtain ⟨hx, hpercent, hhi, hlo⟩ := hsep
  induction t with
  | nil => rfl
  | cons c rest ih =>
      by_cases hc : c = x
      · subst hc
        rw [escapeWith_cons_self]
        simp only [cut, hpercent.symm, hhi.symm, hlo.symm, hx.symm, if_false, ih,
          escapeWith_cons_self]
      · rw [escapeWith_cons_ne hc]
        simp only [cut, ih]
        split_ifs with hs
        · simp [escapeWith]
        · simp [escapeWith_cons_ne hc]

/-! ## Parts of a text -/

section Parts

variable {ordinary : Char → Prop} {sep : Char}

/-- What is not ordinary, and no part of an escape, does not occur. -/
lemma PctEncoded.not_mem {t : List Char} (h : PctEncoded ordinary t) (hsep : sep ≠ '%')
    (hdigit : hexValue sep = none) (hextra : ¬ ordinary sep) : sep ∉ t := by
  induction h with
  | nil => exact List.not_mem_nil
  | plain c rest _ hordinary _ ih =>
      rintro (_ | ⟨_, hmem⟩)
      · exact hextra hordinary
      · exact ih hmem
  | escape hi lo rest hdigits _ ih =>
      intro hmem
      rcases List.mem_cons.mp hmem with rfl | hmem
      · exact hsep rfl
      · rcases List.mem_cons.mp hmem with rfl | hmem
        · simp [escaped_of_left hdigit] at hdigits
        · rcases List.mem_cons.mp hmem with rfl | hmem
          · simp [escaped_of_right hi hdigit] at hdigits
          · exact ih hmem

/-- A separator that is ordinary and no digit splits a text into texts. -/
lemma pctEncoded_splitOn (hsep : sep ≠ '%') (hdigit : hexValue sep = none)
    (hordinary : ordinary sep) (t : List Char) :
    PctEncoded ordinary t ↔ ∀ p ∈ t.splitOn sep, PctEncoded ordinary p := by
  induction t using text_induction with
  | nil => simp [PctEncoded.nil]
  | plain c rest hc ih =>
      rw [pctEncoded_plain hc, ih, List.splitOn_cons_eq_if_modifyHead]
      by_cases hs : c = sep
      · subst hs
        simp [hordinary, PctEncoded.nil]
      · rcases hsplit : rest.splitOn sep with _ | ⟨p, ps⟩
        · exact absurd hsplit (List.splitOn_ne_nil sep rest)
        · simp [hs, pctEncoded_plain hc, and_assoc]
  | escape hi lo rest ih =>
      rw [pctEncoded_escape, ih]
      simp only [List.splitOn_cons_eq_if_modifyHead, beq_iff_eq, hsep.symm, if_false]
      by_cases hhi : hi = sep
      · subst hhi
        simp [escaped_of_left hdigit, not_pctEncoded_lone]
      · by_cases hlo : lo = sep
        · subst hlo
          simp [escaped_of_right hi hdigit, not_pctEncoded_digit, hhi]
        · rcases hsplit : rest.splitOn sep with _ | ⟨p, ps⟩
          · exact absurd hsplit (List.splitOn_ne_nil sep rest)
          · simp [hhi, hlo, pctEncoded_escape, and_assoc]
  | lone =>
      simp [List.splitOn_cons_eq_if_modifyHead, List.splitOn_nil, hsep.symm, not_pctEncoded_lone]
  | digit a =>
      by_cases ha : a = sep <;>
        simp [List.splitOn_cons_eq_if_modifyHead, List.splitOn_nil, hsep.symm, ha,
          not_pctEncoded_lone, not_pctEncoded_digit]

/-- Cutting is splitting as far as the grammar is concerned. -/
lemma pctEncoded_cut (hsep : sep ≠ '%') (hdigit : hexValue sep = none) (hordinary : ordinary sep)
    (t : List Char) :
    PctEncoded ordinary t ↔
      PctEncoded ordinary (cut sep t).1 ∧ ∀ r ∈ (cut sep t).2, PctEncoded ordinary r := by
  induction t using text_induction with
  | nil => simp [cut, PctEncoded.nil]
  | plain c rest hc ih =>
      rw [pctEncoded_plain hc]
      by_cases hs : c = sep
      · subst hs
        simp [cut, hordinary, PctEncoded.nil]
      · simp [cut, hs, pctEncoded_plain hc, ih, and_assoc]
  | escape hi lo rest ih =>
      rw [pctEncoded_escape]
      by_cases hhi : hi = sep
      · subst hhi
        simp [cut, hsep.symm, escaped_of_left hdigit, not_pctEncoded_lone]
      · by_cases hlo : lo = sep
        · subst hlo
          simp [cut, hsep.symm, escaped_of_right hi hdigit, not_pctEncoded_digit, hhi]
        · simp [cut, hsep.symm, hhi, hlo, pctEncoded_escape, ih, and_assoc]
  | lone => simp [cut, hsep.symm, not_pctEncoded_lone]
  | digit a => by_cases ha : a = sep <;>
      simp [cut, hsep.symm, ha, not_pctEncoded_lone, not_pctEncoded_digit]

end Parts

/-! ## Encoding a text -/

/-- The escape of a character of one byte. -/
def escapeOf (c : Char) : List Char :=
  ['%', Nat.digitChar (c.toNat / 16), Nat.digitChar (c.toNat % 16)]

/-- Write every character that is not kept as its escape. -/
def percentEncode (keep : Char → Bool) (t : List Char) : List Char :=
  t.flatMap fun c => if keep c then [c] else escapeOf c

section Encode

variable {keep : Char → Bool}

lemma hexValue_digitChar : ∀ n < 16, hexValue (Nat.digitChar n) = some n := by decide

/-- The digits of an escape are read back. -/
lemma escaped_digitChar {c : Char} (hc : c.toNat < 256) :
    escaped (Nat.digitChar (c.toNat / 16)) (Nat.digitChar (c.toNat % 16)) = some c := by
  have hsum : 16 * (c.toNat / 16) + c.toNat % 16 = c.toNat := Nat.div_add_mod c.toNat 16
  rw [escaped, hexValue_digitChar _ (by omega), hexValue_digitChar _ (by omega), Option.bind_some,
    Option.map_some, hsum, Char.ofNat_toNat]

/-- **Round trip**: decoding an encoded text gives the text, when the kept characters stand for
themselves. -/
theorem percentDecode_percentEncode {plain : Char → Option Char}
    (hkeep : ∀ c, keep c = true → c ≠ '%' ∧ plain c = some c) (t : List Char)
    (hbytes : ∀ c ∈ t, c.toNat < 256) : percentDecode plain (percentEncode keep t) = some t := by
  induction t with
  | nil => rfl
  | cons c t ih =>
      rw [List.forall_mem_cons] at hbytes
      have hrest := ih hbytes.2
      unfold percentEncode at hrest ⊢
      rw [List.flatMap_cons]
      split_ifs with hc
      · obtain ⟨hpercent, hplain⟩ := hkeep c hc
        rw [List.cons_append, List.nil_append, percentDecode_plain hpercent, hplain,
          Option.bind_some, hrest, Option.map_some]
      · rw [escapeOf, List.cons_append, List.cons_append, List.cons_append, List.nil_append,
          percentDecode_escape, escaped_digitChar hbytes.1, Option.bind_some, hrest,
          Option.map_some]

/-- A character that is neither kept nor part of an escape does not occur. -/
lemma not_mem_percentEncode {sep : Char} (hsep : keep sep = false) (hpercent : sep ≠ '%')
    (hdigit : hexValue sep = none) {t : List Char} (hbytes : ∀ c ∈ t, c.toNat < 256) :
    sep ∉ percentEncode keep t := by
  have hne : ∀ n < 16, sep ≠ Nat.digitChar n := by
    rintro n hn rfl
    rw [hexValue_digitChar n hn] at hdigit
    cases hdigit
  intro hmem
  obtain ⟨c, hc, hmem⟩ := List.mem_flatMap.mp hmem
  have hbyte := hbytes c hc
  split_ifs at hmem with hkeep
  · rw [List.mem_singleton.mp hmem, hkeep] at hsep
    cases hsep
  · simp only [escapeOf, List.mem_cons, List.not_mem_nil, or_false] at hmem
    rcases hmem with h | h | h
    · exact hpercent h
    · exact hne _ (by omega) h
    · exact hne _ (by omega) h

end Encode

end HttpServer
