import HttpServerCpp.Core.PercentEncoding
import HttpServerCpp.Message.WriteResponse

/-!
# `Accept-Encoding`

The list of codings that a request accepts, by the grammar of HTTP: elements between commas, each
a coding or `*` with an optional weight from 0 to 1 in thousandths.  A value *admits* gzip when an
element names it with a positive weight, or none names it and a `*` has one.

`writeResponse` instead looks for the letters `gzip` or a `*` anywhere in the value.
`icontains_of_named`: it finds every value that names either.  `compressesIfAdmitted_iff` says
which values it takes wrongly.
-/

namespace HttpServer

/-! ## The grammar -/

/-- A coding, or `*`, and its weight in thousandths. -/
structure AcceptedCoding where
  coding : String
  weight : Nat
deriving DecidableEq

/-- Up to three digits behind the point. -/
def thousandths (digits : List Char) : Nat :=
  (digits ++ List.replicate (3 - digits.length) '0').foldl (fun n c => 10 * n + (c.toNat - 48)) 0

/-- `qvalue = ( "0" [ "." 0*3DIGIT ] ) / ( "1" [ "." 0*3("0") ] )`. -/
def qvalue : List Char → Option Nat
  | ['0'] => some 0
  | ['1'] => some 1000
  | '0' :: '.' :: digits =>
      if digits.length ≤ 3 ∧ digits.all Char.isDigit then some (thousandths digits) else none
  | '1' :: '.' :: digits =>
      if digits.length ≤ 3 ∧ digits.all (· = '0') then some 1000 else none
  | _ => none

/-- The weight behind a `;`; an element without one counts fully. -/
def codingWeight : Option (List Char) → Option Nat
  | none => some 1000
  | some text =>
      match trimBlanks text with
      | 'q' :: '=' :: value => qvalue value
      | 'Q' :: '=' :: value => qvalue value
      | _ => none

/-- An element, if the text is one. -/
def acceptedCoding (text : List Char) : Option AcceptedCoding :=
  (codingWeight (cut ';' text).2).map fun weight =>
    ⟨String.ofList (trimBlanks (cut ';' text).1), weight⟩

/-- The elements of a value. -/
def acceptedCodings (value : String) : List AcceptedCoding :=
  (value.toList.splitOn ',').filterMap acceptedCoding

/-- The value admits gzip. -/
def AdmitsGzip (value : String) : Prop :=
  (∃ e ∈ acceptedCodings value, SameName e.coding "gzip" ∧ 0 < e.weight) ∨
    (∀ e ∈ acceptedCodings value, ¬ SameName e.coding "gzip") ∧
      ∃ e ∈ acceptedCodings value, e.coding = "*" ∧ 0 < e.weight

instance (value : String) : Decidable (AdmitsGzip value) :=
  inferInstanceAs (Decidable (_ ∨ _ ∧ _))

example : AdmitsGzip "deflate, GZIP ; q=0.5" ∧ AdmitsGzip "br;q=1.0,*" ∧ ¬ AdmitsGzip "x-gzip" := by
  decide +kernel

/-! ## What is found by letters -/

lemma infix_of_mem_intercalate {sep : List Char} {pieces : List (List Char)} {p : List Char}
    (h : p ∈ pieces) : p <:+: sep.intercalate pieces := by
  induction pieces with
  | nil => simp at h
  | cons q pieces ih =>
      rcases pieces with _ | ⟨q', pieces⟩
      · rw [List.mem_singleton.mp h]
        simp
      · rw [List.intercalate_cons_cons]
        rcases List.mem_cons.mp h with rfl | h
        · exact ((List.prefix_append _ _).trans (List.prefix_append _ _)).isInfix
        · exact (ih h).trans (List.suffix_append _ _).isInfix

/-- An element's coding stands in the value. -/
lemma coding_within {value : String} {e : AcceptedCoding} (h : e ∈ acceptedCodings value) :
    e.coding.toList <:+: value.toList := by
  obtain ⟨text, htext, he⟩ := List.mem_filterMap.mp h
  obtain ⟨weight, -, rfl⟩ := Option.map_eq_some_iff.mp he
  have hcut : (cut ';' text).1 <+: text := ⟨_, (cut_join ';' text).symm⟩
  have hvalue : text <:+: value.toList := by
    have hjoined := @infix_of_mem_intercalate [','] _ _ htext
    rwa [List.intercalate_splitOn] at hjoined
  rw [String.toList_ofList]
  exact (trimBlanks_within _).trans (hcut.isInfix.trans hvalue)

/-- **The search finds every value with an element of that name.** -/
lemma icontains_of_named {value name : String} {e : AcceptedCoding}
    (h : e ∈ acceptedCodings value) (hname : SameName e.coding name) : icontains value name := by
  have hfold : foldCase e.coding = foldCase name := hname
  rw [icontains, ← hfold]
  exact (coding_within h).map Char.toLower

/-! ## When a body is coded -/

/-- The message depends on what the gzip filter makes of the body. -/
def CompressesBody (boost : Boost) (opts : HttpServerOptions) (request : RequestMessage)
    (rsp : HttpResponse) (response : ResponseMessage) : Prop :=
  ∃ gzip gzip' : CompressionLevel → String → String,
    writeResponseMessage { boost with gzip := gzip } opts request rsp response ≠
      writeResponseMessage { boost with gzip := gzip' } opts request rsp response

/-- The last line of a prepared message is a framing field. -/
lemma getLast?_preparePayload (boost : Boost) (m : ResponseMessage) :
    ∃ name value, (m.preparePayload boost).fields.lines.getLast? = some (name, value) ∧
      name ≠ "Content-Encoding" := by
  have hset : ∀ (fs : Fields) (name value : String),
      (fs.set name value).lines.getLast? = some (name, value) := by
    intro fs name value
    simp [Fields.set]
  unfold ResponseMessage.preparePayload
  dsimp only
  split
  · exact ⟨_, _, hset _ _ _, by decide⟩
  · split_ifs
    · refine ⟨"Content-Length", toString m.body.length, ?_, by decide⟩
      have hkept : ¬ SameName "Content-Length" "Transfer-Encoding" := by decide
      simp [ResponseMessage.set, Fields.set, Fields.erase, List.filter_append, hkept]
    · exact ⟨_, _, hset _ _ _, by decide⟩

lemma compressesBody_iff (boost : Boost) (opts : HttpServerOptions) (request : RequestMessage)
    (rsp : HttpResponse) (response : ResponseMessage) :
    CompressesBody boost opts request rsp response ↔ gzips opts request rsp := by
  constructor
  · rintro ⟨gzip, gzip', hne⟩
    by_contra hplain
    refine hne ?_
    rw [writeResponseMessage_eq, writeResponseMessage_eq]
    simp only [codedBody, if_neg hplain]
    rfl
  · intro hgzips
    have hlabelled : ∀ (boost : Boost) (m m' : ResponseMessage),
        m.set "Content-Encoding" "gzip" ≠ m'.preparePayload boost := by
      intro boost m m' heq
      obtain ⟨name, value, hlast, hname⟩ := getLast?_preparePayload boost m'
      rw [← heq] at hlast
      have hencoding : ("Content-Encoding", "gzip") = (name, value) := by
        simpa [ResponseMessage.set, Fields.set] using hlast
      exact hname (congrArg Prod.fst hencoding).symm
    -- a filter that loses everything, and one that does not
    refine ⟨fun _ _ => "", fun _ _ => "a", fun heq => ?_⟩
    rw [writeResponseMessage_eq, writeResponseMessage_eq] at heq
    simp only [codedBody, if_pos hgzips, if_true, String.reduceEq, if_false] at heq
    split_ifs at heq
    · exact hlabelled _ _ _ heq
    · exact hlabelled _ _ _ heq

/-! ## Which values are taken wrongly -/

/-- Elements name gzip, and all of them refuse it. -/
def GzipRefused (value : String) : Prop :=
  (∃ e ∈ acceptedCodings value, SameName e.coding "gzip") ∧
    ∀ e ∈ acceptedCodings value, SameName e.coding "gzip" → e.weight = 0

/-- No element names gzip, and every `*` refuses the codings it stands for. -/
def OthersRefused (value : String) : Prop :=
  (∀ e ∈ acceptedCodings value, ¬ SameName e.coding "gzip") ∧
    (∃ e ∈ acceptedCodings value, e.coding = "*") ∧
    ∀ e ∈ acceptedCodings value, e.coding = "*" → e.weight = 0

/-- The letters or the star are part of something else. -/
def OnlyLetters (value : String) : Prop :=
  (∀ e ∈ acceptedCodings value, ¬ SameName e.coding "gzip" ∧ e.coding ≠ "*") ∧
    (icontains value "gzip" ∨ icontains value "*")

/-- The values that the search takes and the grammar does not admit. -/
lemma mistaken_iff (value : String) :
    (icontains value "gzip" ∨ icontains value "*") ∧ ¬ AdmitsGzip value ↔
      GzipRefused value ∨ OthersRefused value ∨ OnlyLetters value := by
  constructor
  · rintro ⟨hcontains, hrefused⟩
    obtain ⟨hgzip, hstar⟩ := not_or.mp hrefused
    by_cases hnamed : ∃ e ∈ acceptedCodings value, SameName e.coding "gzip"
    · refine Or.inl ⟨hnamed, fun e he hname => ?_⟩
      exact Nat.eq_zero_of_not_pos fun hpos => hgzip ⟨e, he, hname, hpos⟩
    · have hnone : ∀ e ∈ acceptedCodings value, ¬ SameName e.coding "gzip" :=
        fun e he hname => hnamed ⟨e, he, hname⟩
      by_cases hany : ∃ e ∈ acceptedCodings value, e.coding = "*"
      · refine Or.inr (Or.inl ⟨hnone, hany, fun e he hname => ?_⟩)
        exact Nat.eq_zero_of_not_pos fun hpos => hstar ⟨hnone, e, he, hname, hpos⟩
      · exact Or.inr (Or.inr ⟨fun e he => ⟨hnone e he, fun h => hany ⟨e, he, h⟩⟩, hcontains⟩)
  · rintro (⟨⟨e, he, hname⟩, hzero⟩ | ⟨hnone, ⟨e, he, hname⟩, hzero⟩ | ⟨hneither, hcontains⟩)
    · refine ⟨Or.inl (icontains_of_named he hname), ?_⟩
      rintro (⟨e', he', hname', hpos⟩ | ⟨hnone, -⟩)
      · exact hpos.ne' (hzero e' he' hname')
      · exact hnone e he hname
    · refine ⟨Or.inr (icontains_of_named he (hname ▸ SameName.refl _)), ?_⟩
      rintro (⟨e', he', hname', -⟩ | ⟨-, e', he', hname', hpos⟩)
      · exact hnone e' he' hname'
      · exact hpos.ne' (hzero e' he' hname')
    · refine ⟨hcontains, ?_⟩
      rintro (⟨e', he', hname', -⟩ | ⟨-, e', he', hname', -⟩)
      · exact (hneither e' he').1 hname'
      · exact (hneither e' he').2 hname'

/-- **When automatic gzip respects the request.**  For a response without forced gzip, the body is
compressed only if the request admits it exactly when the body has at most 500 octets, or automatic
gzip is off, or the value is of none of the three kinds. -/
theorem compressesIfAdmitted_iff (boost : Boost) (opts : HttpServerOptions)
    (request : RequestMessage) (rsp : HttpResponse) (response : ResponseMessage)
    (hforce : rsp.forceGzip = false) :
    (CompressesBody boost opts request rsp response →
        AdmitsGzip (request.fields.get "Accept-Encoding")) ↔
      rsp.body.length ≤ 500 ∨ opts.autoGzip = false ∨
        ¬ (GzipRefused (request.fields.get "Accept-Encoding") ∨
          OthersRefused (request.fields.get "Accept-Encoding") ∨
          OnlyLetters (request.fields.get "Accept-Encoding")) := by
  rw [compressesBody_iff, ← mistaken_iff, gzips, autoGzips, hforce, ← Nat.not_lt,
    ← Bool.not_eq_true]
  simp only [Bool.false_eq_true, false_or, gt_iff_lt, imp_iff_not_or, not_and_or, not_not,
    or_assoc]

/-- A request with this `Accept-Encoding` line only. -/
def acceptingRequest (value : String) : RequestMessage :=
  { RequestMessage.fresh with fields := ⟨[("Accept-Encoding", value)]⟩ }

/-- A response of 501 octets. -/
def longResponse : HttpResponse := .new .OK (String.ofList (List.replicate 501 'a')) "text/plain"

lemma longResponse_length : longResponse.body.length > 500 := by
  rw [longResponse, HttpResponse.new, String.length_ofList, List.length_replicate]
  decide

/-- `gzip` with a weight of its own. -/
theorem compressesIfAdmitted_iff_weighted :
    CompressesBody plainBoost {} (acceptingRequest "br, gzip;q=0.8") longResponse .fresh ∧
      AdmitsGzip "br, gzip;q=0.8" := by
  have hcompresses : CompressesBody plainBoost {} (acceptingRequest "br, gzip;q=0.8") longResponse
      .fresh :=
    (compressesBody_iff _ _ _ _ _).mpr
      (Or.inr ⟨longResponse_length, rfl, Or.inl (by decide +kernel)⟩)
  refine ⟨hcompresses, (compressesIfAdmitted_iff plainBoost {} (acceptingRequest "br, gzip;q=0.8")
    longResponse .fresh rfl).mpr (Or.inr (Or.inr ?_)) hcompresses⟩
  rw [← mistaken_iff]
  decide +kernel

/-- `Accept-Encoding: gzip;q=0` refuses gzip, and gets it. -/
theorem refused_gzip_compressed :
    ¬ AdmitsGzip "gzip;q=0" ∧
      CompressesBody plainBoost {} (acceptingRequest "gzip;q=0") longResponse .fresh :=
  ⟨by decide +kernel, (compressesBody_iff _ _ _ _ _).mpr
    (Or.inr ⟨longResponse_length, rfl, Or.inl (by decide +kernel)⟩)⟩

end HttpServer
