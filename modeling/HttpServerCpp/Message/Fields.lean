import Mathlib.Data.List.DropRight
import Mathlib.Data.List.Infix
import HttpServerCpp.Core.SortedMap

/-!
# Header fields

The field container of Beast (`beast::http::basic_fields`), which is outside the repository, as
its documentation describes it and the session relies on it: field lines in order, names compared
without regard to letter case.

* `set` replaces every line of that name by one new line at the end, `erase` removes every line
  of that name, `find` reads the first.
* `named_setAll` says what a loop of `set` calls leaves under a name: the last call that named it.
* `trimBlanks` is what remains of a value, or of a member of a list, without the white space that
  may stand around it.
-/

namespace HttpServer

/-- A name with its letters in lower case. -/
def foldCase (name : String) : List Char := name.toList.map Char.toLower

/-- `beast::iequals` on field names. -/
def SameName (a b : String) : Prop := foldCase a = foldCase b

instance (a b : String) : Decidable (SameName a b) :=
  inferInstanceAs (Decidable (foldCase a = foldCase b))

@[refl] lemma SameName.refl (a : String) : SameName a a := rfl

lemma SameName.symm {a b : String} (h : SameName a b) : SameName b a := Eq.symm h

lemma SameName.trans {a b c : String} (h : SameName a b) (h' : SameName b c) : SameName a c :=
  Eq.trans h h'

/-- Optional white space. -/
def isBlank (c : Char) : Bool := c = ' ' || c = '\t'

/-- The text without white space around it. -/
def trimBlanks (t : List Char) : List Char := (t.dropWhile isBlank).rdropWhile isBlank

lemma trimBlanks_within (t : List Char) : trimBlanks t <:+: t := by
  have hfront : trimBlanks t <+: t.dropWhile isBlank := List.rdropWhile_prefix isBlank _
  exact hfront.isInfix.trans (List.dropWhile_suffix isBlank).isInfix

/-- The field lines of a message. -/
structure Fields where
  lines : List (String × String)
deriving DecidableEq

namespace Fields

/-- A message without fields; also what `clear()` leaves. -/
def empty : Fields := ⟨[]⟩

/-- `erase(name)`. -/
def erase (fs : Fields) (name : String) : Fields :=
  ⟨fs.lines.filter fun line => ¬ SameName line.1 name⟩

/-- `set(name, value)`. -/
def set (fs : Fields) (name value : String) : Fields :=
  ⟨(fs.erase name).lines ++ [(name, value)]⟩

/-- The value of the first line of that name. -/
def find (fs : Fields) (name : String) : Option String :=
  (fs.lines.find? fun line => SameName line.1 name).map Prod.snd

/-- `operator[]`: the empty string for a field that is absent. -/
def get (fs : Fields) (name : String) : String := (fs.find name).getD ""

/-- The values of the lines of that name. -/
def named (fs : Fields) (name : String) : List String :=
  (fs.lines.filter fun line => SameName line.1 name).map Prod.snd

lemma find_eq_head? (fs : Fields) (name : String) : fs.find name = (fs.named name).head? := by
  rw [find, named, List.head?_map, List.head?_filter]

lemma named_congr (fs : Fields) {name name' : String} (h : SameName name name') :
    fs.named name = fs.named name' := by
  unfold named
  congr 2
  funext line
  exact decide_eq_decide.mpr ⟨fun hline => hline.trans h, fun hline => hline.trans h.symm⟩

@[simp] lemma find_empty (name : String) : empty.find name = none := rfl

lemma named_erase (fs : Fields) (name name' : String) :
    (fs.erase name).named name' = if SameName name' name then [] else fs.named name' := by
  simp only [named, erase, List.filter_filter]
  split_ifs with h
  · -- every line that could answer was removed
    rw [List.map_eq_nil_iff, List.filter_eq_nil_iff]
    intro line _ hline
    simp only [Bool.and_eq_true, decide_eq_true_eq] at hline
    exact hline.2 (hline.1.trans h)
  · congr 2
    funext line
    by_cases hline : SameName line.1 name'
    · have hother : ¬ SameName line.1 name := fun hl => h (hline.symm.trans hl)
      simp [hline, hother]
    · simp [hline]

lemma named_set (fs : Fields) (name value name' : String) :
    (fs.set name value).named name' =
      if SameName name' name then [value] else fs.named name' := by
  have happend : (fs.set name value).named name' =
      (fs.erase name).named name' ++ if SameName name name' then [value] else [] := by
    simp only [named, set, List.filter_append, List.map_append]
    split_ifs with h <;> simp [h]
  rw [happend, named_erase]
  by_cases h : SameName name' name
  · simp [h, h.symm]
  · have h' : ¬ SameName name name' := fun hn => h hn.symm
    simp [h, h']

lemma find_erase (fs : Fields) (name name' : String) :
    (fs.erase name).find name' = if SameName name' name then none else fs.find name' := by
  rw [find_eq_head?, find_eq_head?, named_erase]
  split_ifs <;> rfl

lemma find_set (fs : Fields) (name value name' : String) :
    (fs.set name value).find name' = if SameName name' name then some value else fs.find name' := by
  rw [find_eq_head?, find_eq_head?, named_set]
  split_ifs <;> rfl

/-- One `set` call for each entry of a list, in order. -/
def setAll (fs : Fields) (entries : List (String × String)) : Fields :=
  entries.foldl (fun fs entry => fs.set entry.1 entry.2) fs

end Fields

/-- The value of the last entry of that name. -/
def lastNamed (entries : List (String × String)) (name : String) : Option String :=
  ((entries.filter fun entry => SameName entry.1 name).getLast?).map Prod.snd

lemma lastNamed_cons (entry : String × String) (entries : List (String × String)) (name : String) :
    lastNamed (entry :: entries) name =
      (lastNamed entries name).or (if SameName entry.1 name then some entry.2 else none) := by
  rw [lastNamed, getLast?_filter_cons, lastNamed, Option.map_or]
  by_cases h : SameName entry.1 name <;> simp [h]

/-- **Last call wins**, in the order the loop makes the calls, and leaves one line. -/
lemma Fields.named_setAll : ∀ (entries : List (String × String)) (fs : Fields) (name : String),
    (fs.setAll entries).named name =
      (lastNamed entries name).elim (fs.named name) fun value => [value] := by
  intro entries
  induction entries with
  | nil =>
      intro fs name
      simp [setAll, lastNamed]
  | cons entry entries ih =>
      intro fs name
      have hstep : fs.setAll (entry :: entries) = (fs.set entry.1 entry.2).setAll entries := rfl
      rw [hstep, ih, lastNamed_cons, named_set]
      cases lastNamed entries name with
      | some value => rfl
      | none =>
          by_cases h : SameName name entry.1
          · simp [h, h.symm]
          · have h' : ¬ SameName entry.1 name := fun hn => h hn.symm
            simp [h, h']

lemma Fields.find_setAll (entries : List (String × String)) (fs : Fields) (name : String) :
    (fs.setAll entries).find name = (lastNamed entries name).or (fs.find name) := by
  rw [find_eq_head?, named_setAll, find_eq_head?]
  cases lastNamed entries name <;> rfl

end HttpServer
