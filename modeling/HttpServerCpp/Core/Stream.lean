import Mathlib.Data.List.Basic

/-!
# Reading values off a stream

A stream carries the octets of one value after another, and its reader has to find out where each
ends.

* `readEach` reads one value for each of a list of contexts; `readEach_written` says that it reads
  what was written when each value is read whatever follows it.
* `takeLines` reads lines up to an empty one; `takeLines_written` is the same for them.
-/

namespace HttpServer

/-! ## One value after another -/

section Each

variable {α β γ ι : Type}

/-- Read one value for each context, as long as there are values to read. -/
def readEach (read : γ → List β → Option (α × List β)) : List γ → List β → List α × List β
  | [], octets => ([], octets)
  | c :: cs, octets =>
      match read c octets with
      | none => ([], octets)
      | some (a, rest) => (a :: (readEach read cs rest).1, (readEach read cs rest).2)

/-- **What was written is read**, and what follows is left on the stream.  The last value may be
one that is only read when nothing follows. -/
theorem readEach_written {read : γ → List β → Option (α × List β)} {context : ι → γ}
    {value : ι → α} {write : ι → List β} {rest : List β} : ∀ {items : List ι},
    (∀ before i after, items = before ++ i :: after →
      read (context i) (write i ++ (after.flatMap write ++ rest)) =
        some (value i, after.flatMap write ++ rest)) →
    readEach read (items.map context) (items.flatMap write ++ rest) = (items.map value, rest) := by
  intro items
  induction items with
  | nil =>
      intro _
      simp [readEach]
  | cons i items ih =>
      intro h
      have hfirst := h [] i items rfl
      have hrest := ih fun before j after hsplit => h (i :: before) j after (by simp [hsplit])
      rw [List.map_cons, List.flatMap_cons, List.append_assoc, readEach, hfirst]
      simp [hrest]

end Each

/-! ## Lines -/

/-- The end of a line. -/
def crlf : List Char := ['\r', '\n']

/-- The line that a stream begins with. -/
def takeLine : List Char → Option (List Char × List Char)
  | [] => none
  | c :: rest =>
      if c = '\r' ∧ rest.head? = some '\n' then some ([], rest.tail)
      else (takeLine rest).map fun l => (c :: l.1, l.2)

lemma takeLine_written {line : List Char} (h : '\r' ∉ line) (rest : List Char) :
    takeLine (line ++ (crlf ++ rest)) = some (line, rest) := by
  induction line with
  | nil => simp [takeLine, crlf]
  | cons c line ih =>
      rw [List.mem_cons, not_or] at h
      have hc : ¬ (c = '\r' ∧ (line ++ (crlf ++ rest)).head? = some '\n') :=
        fun hends => h.1 hends.1.symm
      rw [List.cons_append, takeLine, if_neg hc, ih h.2, Option.map_some]

/-- The lines up to the first empty one, at most `fuel` of them. -/
def takeLines : Nat → List Char → Option (List (List Char) × List Char)
  | 0, _ => none
  | fuel + 1, octets =>
      (takeLine octets).bind fun l =>
        if l.1 = [] then some ([], l.2)
        else (takeLines fuel l.2).map fun ls => (l.1 :: ls.1, ls.2)

/-- Lines, and an empty one after them. -/
def writeLines (lines : List (List Char)) : List Char := lines.flatMap (· ++ crlf) ++ crlf

/-- **Lines are read back.** -/
theorem takeLines_written {lines : List (List Char)}
    (h : ∀ line ∈ lines, line ≠ [] ∧ '\r' ∉ line) (rest : List Char) :
    ∀ {fuel : Nat}, lines.length < fuel →
      takeLines fuel (writeLines lines ++ rest) = some (lines, rest) := by
  induction lines with
  | nil =>
      intro fuel hfuel
      cases fuel with
      | zero => omega
      | succ fuel => simp [takeLines, writeLines, takeLine, crlf]
  | cons line lines ih =>
      intro fuel hfuel
      rw [List.forall_mem_cons] at h
      cases fuel with
      | zero => omega
      | succ fuel =>
          have hwritten : writeLines (line :: lines) ++ rest =
              line ++ (crlf ++ (writeLines lines ++ rest)) := by
            simp [writeLines]
          have hrest := ih h.2 (Nat.lt_of_succ_lt_succ hfuel)
          rw [hwritten, takeLines, takeLine_written h.1.2, Option.bind_some, if_neg h.1.1, hrest,
            Option.map_some]

lemma length_lt_writeLines (lines : List (List Char)) :
    lines.length < (writeLines lines).length := by
  induction lines with
  | nil => simp [writeLines, crlf]
  | cons line lines ih =>
      simp [writeLines, crlf] at ih ⊢
      omega

end HttpServer
