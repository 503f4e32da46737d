import HttpServerCpp.Session.Dispatch

/-!
# The header lines a handler sees

A message holds its header lines in order, with names compared without regard to letter case and
any number of lines of one name.  `processRequest` copies them one by one into a `std::map`, which
keeps one value for each spelling.  `headersAvailable_iff` says when the handler can still read
every value: each must be carried by the last line of some spelling of its name.
-/

namespace HttpServer

variable {H : Type}

/-- `value` is `text`, or an element of the comma-separated list `text`. -/
def CarriesValue (text value : String) : Prop :=
  ∃ before after : List Char, text.toList = before ++ value.toList ++ after ∧
    (before = [] ∨ ∃ front blanks, before = front ++ ',' :: blanks ∧
      ∀ c ∈ blanks, c = ' ' ∨ c = '\t') ∧
    (after = [] ∨ ∃ blanks rest, after = blanks ++ ',' :: rest ∧
      ∀ c ∈ blanks, c = ' ' ∨ c = '\t')

lemma CarriesValue.refl (value : String) : CarriesValue value value :=
  ⟨[], [], by simp, Or.inl rfl, Or.inl rfl⟩

/-- Every received value is there under a spelling of its name. -/
def HeadersAvailable (lines : List (String × String)) (headers : SortedMap String String) : Prop :=
  ∀ line ∈ lines, ∃ entry ∈ headers.entries,
    SameName entry.1 line.1 ∧ CarriesValue entry.2 line.2

/-- The value of a line that a later one of the same spelling overwrites is carried by a line
that none overwrites, under a spelling of the same name. -/
def OverwrittenCarried (lines : List (String × String)) : Prop :=
  ∀ line ∈ lines, ¬ Survives lines line → ∃ survivor : String × String,
    Survives lines survivor ∧ SameName survivor.1 line.1 ∧ CarriesValue survivor.2 line.2

/-- **When no received value is lost.**  A handler can read every header value of its request
exactly when those that are overwritten are repeated. -/
theorem headersAvailable_iff (ctx : Context H) (m : RequestMessage) (sessionId requestId : UInt64)
    (now : Nat) (handler : H) (r : HttpRequest)
    (h : ctx.dispatch m sessionId requestId now = .handle handler r) :
    HeadersAvailable m.fields.lines r.headers ↔ OverwrittenCarried m.fields.lines := by
  obtain ⟨url, -, -, -, rfl⟩ := Context.dispatch_eq_handle_iff.mp h
  simp only [HeadersAvailable, mem_assignAll]
  constructor
  · intro havailable line hline _
    exact havailable line hline
  · intro hcarried line hline
    by_cases hsurvives : Survives m.fields.lines line
    · exact ⟨line, hsurvives, SameName.refl _, CarriesValue.refl _⟩
    · exact hcarried line hline hsurvives

/-- `GET /hello` with header lines. -/
def getWithLines (lines : List (String × String)) : RequestMessage :=
  { getRequest "/hello" with fields := ⟨lines⟩ }

/-- The two lines of one name are spelled differently. -/
theorem headersAvailable_iff_hello :
    ∃ r, helloContext.dispatch (getWithLines [("Cookie", "a=1"), ("cookie", "b=2")]) 1 1 0 =
        .handle () r ∧ HeadersAvailable [("Cookie", "a=1"), ("cookie", "b=2")] r.headers := by
  refine ⟨_, rfl, (headersAvailable_iff helloContext
    (getWithLines [("Cookie", "a=1"), ("cookie", "b=2")]) 1 1 0 () _ rfl).mpr ?_⟩
  intro line hline hlost
  rcases List.mem_cons.mp hline with rfl | hline
  · exact absurd ⟨[], [("cookie", "b=2")], rfl, by decide⟩ hlost
  · rw [List.mem_singleton.mp hline] at hlost
    exact absurd ⟨[("Cookie", "a=1")], [], rfl, by decide⟩ hlost

/-- Of two `Cookie` lines the handler sees the second only. -/
theorem repeated_line_lost :
    ∃ r, helloContext.dispatch (getWithLines [("Cookie", "a=1"), ("Cookie", "b=2")]) 1 1 0 =
        .handle () r ∧ r.headers.entries = [("Cookie", "b=2")] ∧
      ¬ HeadersAvailable [("Cookie", "a=1"), ("Cookie", "b=2")] r.headers := by
  refine ⟨_, rfl, rfl, fun h => ?_⟩
  obtain ⟨entry, hentry, -, before, after, htext, -⟩ := h ("Cookie", "a=1") (by simp)
  have hvalue : entry = ("Cookie", "b=2") := List.mem_singleton.mp hentry
  rw [hvalue] at htext
  have hlength := congrArg List.length htext
  simp only [List.length_append] at hlength
  have hbefore : before = [] := List.length_eq_zero_iff.mp (by simp at hlength; omega)
  have hafter : after = [] := List.length_eq_zero_iff.mp (by simp at hlength; omega)
  rw [hbefore, hafter] at htext
  exact absurd htext (by decide)

end HttpServer
