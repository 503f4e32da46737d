import HttpServerCpp.Message.Framing

/-!
# What becomes of `header` calls

A handler names the fields of its response one `HttpResponse::header` call at a time.  The calls
are collected in a `std::map`, in which two spellings of a name are two keys, and
`writeResponse` sets the fields in the order of that map, in which the greatest spelling comes
last.

* `lastNamed_built`: the value that is set last is the one the greatest spelling was given last.
* `named_of_headed`: it is what the message carries, once, unless the body makes
  `prepare_payload` rewrite it.
* `lastCallsWin_iff` says for which calls that is the value of the last call.
-/

namespace HttpServer

/-! ## Building a response -/

/-- The member functions by which a handler sets up a response. -/
inductive ResponseCall where
  | forceGzip
  | forceDisableKeepAlive
  | compressionLevel (level : CompressionLevel)
  | header (name value : String)

/-- One call. -/
def HttpResponse.call (rsp : HttpResponse) : ResponseCall → HttpResponse
  | .forceGzip => rsp.withForceGzip
  | .forceDisableKeepAlive => rsp.withForceDisableKeepAlive
  | .compressionLevel level => rsp.withCompressionLevel level
  | .header name value => rsp.header name value

/-- A new response after a sequence of calls. -/
def HttpResponse.built (status : StatusType) (body contentType : String)
    (calls : List ResponseCall) : HttpResponse :=
  calls.foldl HttpResponse.call (.new status body contentType)

/-- The arguments of the `header` calls. -/
def headerCalls (calls : List ResponseCall) : List (String × String) :=
  calls.filterMap fun
    | .header name value => some (name, value)
    | _ => none

lemma foldl_call : ∀ (calls : List ResponseCall) (rsp : HttpResponse),
    (calls.foldl HttpResponse.call rsp).headers =
        (headerCalls calls).foldl (fun m a => m.assign a.1 a.2) rsp.headers ∧
      (calls.foldl HttpResponse.call rsp).contentType = rsp.contentType := by
  intro calls
  induction calls with
  | nil =>
      intro rsp
      exact ⟨rfl, rfl⟩
  | cons call calls ih =>
      intro rsp
      cases call with
      | header name value => exact ih (rsp.header name value)
      | forceGzip => exact ih rsp.withForceGzip
      | forceDisableKeepAlive => exact ih rsp.withForceDisableKeepAlive
      | compressionLevel level => exact ih (rsp.withCompressionLevel level)

section Built

variable {status : StatusType} {body contentType : String} {calls : List ResponseCall}

lemma built_contentType :
    (HttpResponse.built status body contentType calls).contentType = contentType :=
  (foldl_call calls _).2

/-- For each spelling the map holds the value of the last call that used it. -/
lemma mem_built_headers {entry : String × String} :
    entry ∈ (HttpResponse.built status body contentType calls).headers.entries ↔
      Survives (headerCalls calls) entry := by
  rw [HttpResponse.built, (foldl_call calls _).1]
  exact mem_foldl_assign_empty

/-! ## The greatest spelling -/

/-- Of the spellings of `name` that the calls use, `k` is the last in byte order. -/
def GreatestSpelling (calls : List (String × String)) (name k : String) : Prop :=
  SameName k name ∧ (∃ value, (k, value) ∈ calls) ∧
    ∀ call ∈ calls, SameName call.1 name → call.1 ≤ k

lemma lastNamed_isSome {entries : List (String × String)} {name : String} :
    (lastNamed entries name).isSome ↔ ∃ entry ∈ entries, SameName entry.1 name := by
  simp [lastNamed]

/-- **What is set last.** -/
lemma lastNamed_built {name u : String} :
    lastNamed (HttpResponse.built status body contentType calls).headers.entries name = some u ↔
      ∃ k, GreatestSpelling (headerCalls calls) name k ∧ Survives (headerCalls calls) (k, u) := by
  simp only [lastNamed, Option.map_eq_some_iff, SortedMap.getLast?_filter_eq_some,
    mem_built_headers, decide_eq_true_eq]
  constructor
  · rintro ⟨⟨k, value⟩, ⟨hsurvives, hname, hgreatest⟩, rfl⟩
    refine ⟨k, ⟨hname, exists_survives_iff.mp ⟨value, hsurvives⟩, ?_⟩, hsurvives⟩
    intro call hcall hsame
    obtain ⟨value', hvalue'⟩ := exists_survives_iff.mpr ⟨call.2, hcall⟩
    exact hgreatest (call.1, value') hvalue' hsame
  · rintro ⟨k, ⟨hname, -, hgreatest⟩, hsurvives⟩
    refine ⟨(k, u), ⟨hsurvives, hname, ?_⟩, rfl⟩
    intro entry hentry hsame
    obtain ⟨value, hvalue⟩ := exists_survives_iff.mp ⟨entry.2, hentry⟩
    exact hgreatest (entry.1, value) hvalue hsame

/-- The map has a spelling of each name that a call used. -/
lemma lastNamed_built_eq_none {name : String} :
    lastNamed (HttpResponse.built status body contentType calls).headers.entries name = none ↔
      lastNamed (headerCalls calls) name = none := by
  rw [← not_iff_not, ← Ne, ← Ne, ← Option.isSome_iff_ne_none, ← Option.isSome_iff_ne_none,
    lastNamed_isSome, lastNamed_isSome]
  simp only [mem_built_headers]
  constructor
  · rintro ⟨⟨k, value⟩, hsurvives, hsame⟩
    obtain ⟨value', hmem⟩ := exists_survives_iff.mp ⟨value, hsurvives⟩
    exact ⟨(k, value'), hmem, hsame⟩
  · rintro ⟨⟨k, value⟩, hmem, hsame⟩
    obtain ⟨value', hsurvives⟩ := exists_survives_iff.mpr ⟨value, hmem⟩
    exact ⟨(k, value'), hsurvives, hsame⟩

end Built

/-! ## What the message carries -/

/-- The fields the server itself controls. -/
def Controlled (name : String) : Prop :=
  SameName name "Connection" ∨ SameName name "Content-Length" ∨ SameName name "Content-Encoding"

/-- A body follows the header, also when it is the coding of an empty one. -/
def HttpResponse.HasBody (rsp : HttpResponse) : Prop := rsp.forceGzip = true ∨ rsp.body ≠ ""

instance (rsp : HttpResponse) : Decidable rsp.HasBody :=
  inferInstanceAs (Decidable (_ ∨ _))

section Written

variable {boost : Boost} {opts : HttpServerOptions} {request : RequestMessage}
  {rsp : HttpResponse} {response : ResponseMessage} {name u : String}

/-- **What a message carries under a name**: what the two common stages left there, unless it is
a transfer coding and a body follows. -/
lemma named_of_headed (hdoc : boost.Documented) (hname : ¬ Controlled name)
    (hheaded : (headedMessage boost request rsp response).fields.named name = [u]) :
    (writeResponseMessage boost opts request rsp response).fields.named name =
      if SameName name "Transfer-Encoding" ∧ rsp.HasBody then
        ResponseMessage.preparedCoding boost u
      else [u] := by
  have hlen : ¬ SameName name "Content-Length" := fun h => hname (Or.inr (Or.inl h))
  have henc : ¬ SameName name "Content-Encoding" := fun h => hname (Or.inr (Or.inr h))
  have hbody : codedBody boost opts request rsp ≠ "" ↔ rsp.HasBody := by
    rw [Ne, codedBody_eq_empty hdoc, HttpResponse.HasBody, not_and_or, Bool.not_eq_false]
  rw [named_writeResponseMessage _ _ _ _ henc hlen, hheaded]
  simp only [hbody]
  refine if_ctx_congr Iff.rfl (fun h => ?_) fun _ => rfl
  rw [Fields.find_eq_head?, ← Fields.named_congr _ h.1, hheaded]
  rfl

end Written

/-! ## Whether the last call wins -/

/-- A message carries every field that was named by a `header` call once, with the value of the
last call that named it, and the content type of the constructor if no call did. -/
def LastCallsWin (calls : List (String × String)) (contentType : String)
    (message : ResponseMessage) : Prop :=
  ∀ name, ¬ Controlled name →
    (∀ value, lastNamed calls name = some value → message.fields.named name = [value]) ∧
    (SameName name "Content-Type" → lastNamed calls name = none →
      message.fields.named name = [contentType])

/-- The last call that names a field gives it the value that its greatest spelling was given
last.  A transfer coding in front of a body must also survive `prepare_payload`. -/
def GreatestSpellingAgrees (boost : Boost) (calls : List (String × String)) (hasBody : Prop)
    [Decidable hasBody] : Prop :=
  ∀ name k u value, ¬ Controlled name → GreatestSpelling calls name k → Survives calls (k, u) →
    lastNamed calls name = some value →
    if SameName name "Transfer-Encoding" ∧ hasBody then
      boost.withoutChunked u = value ∧ value ≠ ""
    else u = value

/-- It does where every name has one spelling, and no transfer coding is set. -/
lemma greatestSpellingAgrees_of_oneSpelling {boost : Boost} {calls : List (String × String)}
    {hasBody : Prop} [Decidable hasBody]
    (hone : ∀ call ∈ calls, ∀ call' ∈ calls, SameName call.1 call'.1 → call.1 = call'.1)
    (hcoding : ∀ call ∈ calls, ¬ SameName call.1 "Transfer-Encoding") :
    GreatestSpellingAgrees boost calls hasBody := by
  rintro name k u value - ⟨hsame, ⟨v, hmem⟩, -⟩ hsurvives hvalue
  have hlast : lastNamed calls name = lastAssigned calls k := by
    have hfilter : ∀ call ∈ calls, decide (SameName call.1 name) = decide (call.1 = k) := by
      intro call hcall
      refine decide_eq_decide.mpr ⟨fun h => hone call hcall (k, v) hmem (h.trans hsame.symm), ?_⟩
      rintro rfl
      exact hsame
    rw [lastNamed, lastAssigned, List.filter_congr hfilter]
  rw [hlast, lastAssigned_eq_some.mpr hsurvives] at hvalue
  rw [if_neg fun h => hcoding (k, v) hmem (hsame.trans h.1)]
  exact Option.some.inj hvalue

lemma preparedCoding_eq {boost : Boost} {u value : String} :
    ResponseMessage.preparedCoding boost u = [value] ↔
      boost.withoutChunked u = value ∧ value ≠ "" := by
  unfold ResponseMessage.preparedCoding
  split_ifs with h
  · rw [h]
    constructor
    · rintro ⟨⟩
    · rintro ⟨rfl, hne⟩
      exact absurd rfl hne
  · rw [List.singleton_inj]
    exact ⟨fun heq => ⟨heq, heq ▸ h⟩, fun heq => heq.1⟩

/-- **When the last `header` call wins.** -/
theorem lastCallsWin_iff (boost : Boost) (hdoc : boost.Documented) (opts : HttpServerOptions)
    (request : RequestMessage) (status : StatusType) (body contentType : String)
    (calls : List ResponseCall) (response : ResponseMessage) :
    LastCallsWin (headerCalls calls) contentType
        (writeResponseMessage boost opts request
          (HttpResponse.built status body contentType calls) response) ↔
      GreatestSpellingAgrees boost (headerCalls calls)
        (HttpResponse.built status body contentType calls).HasBody := by
  have hwritten : ∀ name u, ¬ Controlled name →
      lastNamed (HttpResponse.built status body contentType calls).headers.entries name = some u →
      (writeResponseMessage boost opts request
        (HttpResponse.built status body contentType calls) response).fields.named name =
        if SameName name "Transfer-Encoding" ∧
            (HttpResponse.built status body contentType calls).HasBody then
          ResponseMessage.preparedCoding boost u
        else [u] := by
    intro name u hname hlast
    refine named_of_headed hdoc hname ?_
    rw [named_headedMessage, hlast, Option.elim_some]
  constructor
  · intro hwin name k u value hname hgreatest hsurvives hvalue
    have hmessage := (hwin name hname).1 value hvalue
    rw [hwritten name u hname (lastNamed_built.mpr ⟨k, hgreatest, hsurvives⟩)] at hmessage
    split_ifs at hmessage ⊢ with hte
    · exact preparedCoding_eq.mp hmessage
    · exact List.singleton_inj.mp hmessage
  · intro hagrees name hname
    refine ⟨fun value hvalue => ?_, fun htype hnone => ?_⟩
    · -- some call names the field, so one of its spellings is the greatest
      cases hlast : lastNamed
          (HttpResponse.built status body contentType calls).headers.entries name with
      | none => simp [lastNamed_built_eq_none.mp hlast] at hvalue
      | some u =>
          obtain ⟨k, hgreatest, hsurvives⟩ := lastNamed_built.mp hlast
          have hsame := hagrees name k u value hname hgreatest hsurvives hvalue
          rw [hwritten name u hname hlast]
          split_ifs at hsame ⊢ with hte
          · exact preparedCoding_eq.mpr hsame
          · rw [hsame]
    · have hte : ¬ SameName name "Transfer-Encoding" := fun hte =>
        absurd (htype.symm.trans hte) (by decide)
      rw [named_of_headed hdoc hname, if_neg fun h => hte h.1]
      rw [named_headedMessage, lastNamed_built_eq_none.mpr hnone, Option.elim_none,
        if_pos htype, built_contentType]

/-- Two names, each in one spelling. -/
theorem lastCallsWin_iff_plain :
    LastCallsWin [("X-A", "1"), ("X-B", "2"), ("X-A", "3")] "text/plain"
      (writeResponseMessage plainBoost {} .fresh (HttpResponse.built .OK "hello" "text/plain"
        [.header "X-A" "1", .header "X-B" "2", .forceGzip, .header "X-A" "3"]) .fresh) :=
  (lastCallsWin_iff plainBoost plainBoost_documented {} .fresh .OK "hello" "text/plain"
    [.header "X-A" "1", .header "X-B" "2", .forceGzip, .header "X-A" "3"] .fresh).mpr
    (greatestSpellingAgrees_of_oneSpelling (by decide) (by decide))

/-- `header("x-a", "1").header("X-A", "2")`: the first call wins, because `x` is greater than
`X`. -/
theorem first_call_wins :
    (writeResponseMessage plainBoost {} .fresh (HttpResponse.built .OK "hello" "text/plain"
      [.header "x-a" "1", .header "X-A" "2"]) .fresh).fields.named "X-A" = ["1"] ∧
    ¬ LastCallsWin [("x-a", "1"), ("X-A", "2")] "text/plain"
      (writeResponseMessage plainBoost {} .fresh (HttpResponse.built .OK "hello" "text/plain"
        [.header "x-a" "1", .header "X-A" "2"]) .fresh) := by
  have hnamed : (writeResponseMessage plainBoost {} .fresh (HttpResponse.built .OK "hello"
      "text/plain" [.header "x-a" "1", .header "X-A" "2"]) .fresh).fields.named "X-A" = ["1"] := by
    decide
  refine ⟨hnamed, fun h => ?_⟩
  have hname : ¬ Controlled "X-A" := by
    rintro (h | h | h) <;> exact absurd h (by decide)
  exact absurd (hnamed.symm.trans ((h "X-A" hname).1 "2" (by decide))) (by decide)

end HttpServer
