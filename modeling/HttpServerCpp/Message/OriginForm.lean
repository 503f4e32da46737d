import HttpServerCpp.Core.PercentEncoding
import HttpServerCpp.Message.HttpTypes

/-!
# Request targets

The origin-form of RFC 3986, an absolute path with an optional query, and what Boost.URL makes of
it: the decoded segments of the path, and the decoded parameters of the query, where `+` is a
blank.  The characters a path or query may hold besides those of the RFC are a parameter.

* `IsOriginForm` is the grammar; `originForm_isSome` says that the parser accepts it.
* `originForm_escape`: parsing a target in which every `|` was escaped is parsing the target
  itself with `|` as a further character.
-/

namespace HttpServer

/-! ## Characters -/

/-- The unescaped characters of a segment. -/
def pchar (c : Char) : Bool :=
  c.isAlphanum || c ∈ ['-', '.', '_', '~', '!', '$', '&', '\'', '(', ')', '*', '+', ',', ';', '=',
    ':', '@']

variable (extra : Char → Bool)

/-- The unescaped characters of a path segment. -/
def segmentChar (c : Char) : Bool := pchar c || extra c

/-- The unescaped characters of a query. -/
def queryChar (c : Char) : Bool := pchar c || c = '/' || c = '?' || extra c

/-! ## The grammar -/

/-- `absolute-path [ "?" query ]`, with `absolute-path = 1*( "/" segment )`. -/
def IsOriginForm (t : List Char) : Prop :=
  ∃ segments : List (List Char), segments ≠ [] ∧
    (∀ s ∈ segments, PctEncoded (fun c => segmentChar extra c = true) s) ∧
    (t = segments.flatMap ('/' :: ·) ∨
      ∃ query, PctEncoded (fun c => queryChar extra c = true) query ∧
        t = segments.flatMap ('/' :: ·) ++ '?' :: query)

/-! ## The parser -/

/-- Decode a segment. -/
def decodeSegment (s : List Char) : Option String :=
  (percentDecode (fun c => if segmentChar extra c then some c else none) s).map String.ofList

/-- Decode a key or a value, reading `+` as a blank. -/
def decodeWord (w : List Char) : Option String :=
  (percentDecode (fun c => if c = '+' then some ' ' else if queryChar extra c then some c else none)
    w).map String.ofList

/-- The decoded segments of an absolute path; `/` alone has none. -/
def decodePath : List Char → Option (List String)
  | '/' :: rest => if rest = [] then some [] else (rest.splitOn '/').mapM (decodeSegment extra)
  | _ => none

/-- A decoded parameter; without `=` its value is empty. -/
def decodeParam (p : List Char) : Option (String × String) :=
  (decodeWord extra (cut '=' p).1).bind fun key =>
    (decodeWord extra ((cut '=' p).2.getD [])).map fun value => (key, value)

/-- The decoded parameters of a query. -/
def decodeQuery (query : List Char) : Option (List (String × String)) :=
  (query.splitOn '&').mapM (decodeParam extra)

/-- Segments and parameters of a target. -/
def originForm (t : List Char) : Option (List String × List (String × String)) :=
  (decodePath extra (cut '?' t).1).bind fun segments =>
    ((cut '?' t).2.elim (some []) (decodeQuery extra)).map fun params => (segments, params)

/-- The parameters of a target as they stand. -/
def encodedParams (t : List Char) : List (String × String) :=
  (cut '?' t).2.elim [] fun query => (query.splitOn '&').map fun p =>
    (String.ofList (cut '=' p).1, String.ofList ((cut '=' p).2.getD []))

/-- `urls::parse_origin_form`, by the RFC. -/
def rfcParseOriginForm (target : String) : Option UrlView :=
  (originForm (fun _ => false) target.toList).map fun v =>
    ⟨v.1, v.2, encodedParams target.toList⟩

/-! ## Escaping `|` -/

/-- Write every `|` as `%7C`. -/
def escapePipe (t : List Char) : List Char := escapeWith '|' '7' 'C' t

lemma pipe_escapes : Escapes '|' '7' 'C' := ⟨by decide, by decide, by decide⟩

/-- The further characters, and `|`. -/
def withPipe (c : Char) : Bool := extra c || c = '|'

lemma decodeSegment_escape (s : List Char) :
    decodeSegment extra (escapePipe s) = decodeSegment (withPipe extra) s := by
  unfold decodeSegment escapePipe
  rw [percentDecode_escapeWith pipe_escapes]
  congr 2
  funext c
  by_cases hc : c = '|' <;> simp [segmentChar, withPipe, hc]

lemma decodeWord_escape (w : List Char) :
    decodeWord extra (escapePipe w) = decodeWord (withPipe extra) w := by
  unfold decodeWord escapePipe
  rw [percentDecode_escapeWith pipe_escapes]
  congr 2
  funext c
  by_cases hc : c = '|' <;> simp [queryChar, withPipe, hc]

lemma decodePath_escape (path : List Char) :
    decodePath extra (escapePipe path) = decodePath (withPipe extra) path := by
  have hsegment : decodeSegment extra ∘ escapePipe = decodeSegment (withPipe extra) := by
    funext s
    exact decodeSegment_escape extra s
  rcases path with _ | ⟨c, rest⟩
  · rfl
  · by_cases hpipe : c = '|'
    · subst hpipe
      rw [escapePipe, escapeWith_cons_self]
      rfl
    · rw [escapePipe, escapeWith_cons_ne hpipe]
      by_cases hslash : c = '/'
      · subst hslash
        have hnil : escapeWith '|' '7' 'C' rest = [] ↔ rest = [] := by
          rcases rest with _ | ⟨d, rest⟩
          · simp [escapeWith]
          · by_cases hd : d = '|' <;> simp [escapeWith, hd]
        simp only [decodePath, hnil]
        rw [splitOn_escapeWith (by decide), List.mapM_map]
        exact congrArg (fun f => if rest = [] then _ else (rest.splitOn '/').mapM f) hsegment
      · simp [decodePath, hslash]

lemma decodeParam_escape (p : List Char) :
    decodeParam extra (escapePipe p) = decodeParam (withPipe extra) p := by
  have hvalue : (((cut '=' p).2.map escapePipe).getD []) =
      escapePipe ((cut '=' p).2.getD []) := by
    cases (cut '=' p).2 <;> rfl
  unfold decodeParam
  rw [escapePipe, cut_escapeWith (by decide)]
  rw [show (((cut '=' p).2.map (escapeWith '|' '7' 'C')).getD []) = _ from hvalue]
  rw [← escapePipe, decodeWord_escape, decodeWord_escape]

lemma decodeQuery_escape (query : List Char) :
    decodeQuery extra (escapePipe query) = decodeQuery (withPipe extra) query := by
  unfold decodeQuery
  rw [escapePipe, splitOn_escapeWith (by decide), List.mapM_map]
  congr 1
  funext p
  exact decodeParam_escape extra p

/-- **Escaping `|` before the parser is allowing it in the grammar.** -/
theorem originForm_escape (t : List Char) :
    originForm extra (escapePipe t) = originForm (withPipe extra) t := by
  unfold originForm
  rw [escapePipe, cut_escapeWith (by decide), ← escapePipe, decodePath_escape]
  cases (cut '?' t).2 with
  | none => rfl
  | some query =>
      rw [Option.map_some, Option.elim_some, Option.elim_some, ← escapePipe, decodeQuery_escape]

/-! ## What the parser accepts -/

variable {extra}

lemma mapM_isSome {α β : Type} (f : α → Option β) : ∀ l : List α,
    (l.mapM f).isSome ↔ ∀ a ∈ l, (f a).isSome := by
  intro l
  induction l with
  | nil => simp
  | cons a l ih =>
      rw [List.forall_mem_cons, ← ih, List.mapM_cons]
      cases f a with
      | none => simp
      | some b => cases l.mapM f <;> simp

lemma decodeSegment_isSome (s : List Char) :
    (decodeSegment extra s).isSome ↔ PctEncoded (fun c => segmentChar extra c = true) s := by
  have hordinary : (fun c => ((if segmentChar extra c then some c else none).isSome : Prop)) =
      fun c => segmentChar extra c = true := by
    funext c
    by_cases hc : segmentChar extra c <;> simp [hc]
  rw [decodeSegment, Option.isSome_map, percentDecode_isSome, hordinary]

lemma decodeWord_isSome (w : List Char) :
    (decodeWord extra w).isSome ↔ PctEncoded (fun c => queryChar extra c = true) w := by
  have hordinary : (fun c => ((if c = '+' then some ' '
      else if queryChar extra c then some c else none).isSome : Prop)) =
      fun c => queryChar extra c = true := by
    funext c
    by_cases hplus : c = '+'
    · simp [hplus, queryChar, pchar]
    · by_cases hc : queryChar extra c <;> simp [hplus, hc]
  rw [decodeWord, Option.isSome_map, percentDecode_isSome, hordinary]

/-- A path is accepted when its segments are. -/
lemma decodePath_isSome (hslash : extra '/' = false) (path : List Char) :
    (decodePath extra path).isSome ↔
      ∃ segments : List (List Char), segments ≠ [] ∧
        (∀ s ∈ segments, PctEncoded (fun c => segmentChar extra c = true) s) ∧
        path = segments.flatMap ('/' :: ·) := by
  constructor
  · intro h
    rcases path with _ | ⟨c, rest⟩
    · simp [decodePath] at h
    by_cases hc : c = '/'
    · subst hc
      by_cases hrest : rest = []
      · subst hrest
        exact ⟨[[]], by simp, by simp [PctEncoded.nil], rfl⟩
      · have hne : rest.splitOn '/' ≠ [] := List.splitOn_ne_nil '/' rest
        rw [decodePath, if_neg hrest, mapM_isSome] at h
        refine ⟨rest.splitOn '/', hne, fun s hs => (decodeSegment_isSome s).mp (h s hs), ?_⟩
        rw [flatMap_cons_eq '/' hne, List.intercalate_splitOn]
    · simp [decodePath, hc] at h
  · rintro ⟨segments, hne, hsegments, rfl⟩
    have hslashes : ∀ s ∈ segments, '/' ∉ s := fun s hs =>
      (hsegments s hs).not_mem (by decide) (by decide) (by simp [segmentChar, hslash, pchar])
    rw [flatMap_cons_eq '/' hne, decodePath]
    split_ifs
    · rfl
    · rw [List.splitOn_intercalate '/' hslashes hne, mapM_isSome]
      exact fun s hs => (decodeSegment_isSome s).mpr (hsegments s hs)

/-- A query is accepted when its characters are. -/
lemma decodeQuery_isSome (query : List Char) :
    (decodeQuery extra query).isSome ↔ PctEncoded (fun c => queryChar extra c = true) query := by
  have hparam : ∀ p, (decodeParam extra p).isSome ↔
      PctEncoded (fun c => queryChar extra c = true) p := by
    intro p
    have hvalue : (∀ r ∈ (cut '=' p).2, PctEncoded (fun c => queryChar extra c = true) r) ↔
        PctEncoded (fun c => queryChar extra c = true) ((cut '=' p).2.getD []) := by
      cases (cut '=' p).2 <;> simp [PctEncoded.nil]
    have hequals : queryChar extra '=' = true := by simp [queryChar, pchar]
    rw [@pctEncoded_cut _ '=' (by decide) (by decide) hequals, hvalue, ← decodeWord_isSome,
      ← decodeWord_isSome, decodeParam]
    cases decodeWord extra (cut '=' p).1 <;> simp
  have hampersand : queryChar extra '&' = true := by simp [queryChar, pchar]
  rw [decodeQuery, mapM_isSome,
    @pctEncoded_splitOn _ '&' (by decide) (by decide) hampersand]
  exact forall₂_congr fun p _ => hparam p

/-- **The parser accepts the grammar.** -/
theorem originForm_isSome (hslash : extra '/' = false) (hquestion : extra '?' = false)
    (t : List Char) : (originForm extra t).isSome ↔ IsOriginForm extra t := by
  have hparts : (originForm extra t).isSome ↔ (decodePath extra (cut '?' t).1).isSome ∧
      ∀ query ∈ (cut '?' t).2, PctEncoded (fun c => queryChar extra c = true) query := by
    rw [originForm]
    cases decodePath extra (cut '?' t).1 with
    | none => simp
    | some segments => cases (cut '?' t).2 <;> simp [decodeQuery_isSome]
  rw [hparts, decodePath_isSome hslash]
  constructor
  · rintro ⟨⟨segments, hne, hsegments, hpath⟩, hquery⟩
    refine ⟨segments, hne, hsegments, ?_⟩
    have hjoin := cut_join '?' t
    rw [hpath] at hjoin
    rcases hrest : (cut '?' t).2 with _ | query
    · exact Or.inl (by simpa [hrest] using hjoin)
    · exact Or.inr ⟨query, hquery query hrest, by simpa [hrest] using hjoin⟩
  · rintro ⟨segments, hne, hsegments, ht⟩
    have hnot : '?' ∉ segments.flatMap ('/' :: ·) := by
      intro hmem
      rcases List.mem_flatMap.mp hmem with ⟨s, hs, hmem⟩
      have hs' : '?' ∉ s :=
        (hsegments s hs).not_mem (by decide) (by decide) (by simp [segmentChar, hquestion, pchar])
      exact hs' (by simpa using hmem)
    rcases ht with rfl | ⟨query, hquery, rfl⟩
    · rw [cut_of_not_mem hnot]
      exact ⟨⟨segments, hne, hsegments, rfl⟩, by simp⟩
    · rw [cut_append hnot]
      exact ⟨⟨segments, hne, hsegments, rfl⟩, by simpa using hquery⟩

end HttpServer
