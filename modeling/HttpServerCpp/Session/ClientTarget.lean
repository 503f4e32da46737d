import HttpServerCpp.Session.Target

/-!
# The target a client writes

A client that has path segments and parameters to send writes them into the request target,
with every character that RFC 3986 does not leave unreserved as an escape (`encodeTarget`).

* `originForm_encodeTarget`: reading such a target gives the segments and parameters back.
* `sent_target_received`: the router looks the very segments up, and the handler receives them
  with the parameters; with decoding off it receives the spellings that were sent.
-/

namespace HttpServer

/-! ## Writing a target -/

/-- The characters that need no escape anywhere in a target. -/
def unreserved (c : Char) : Bool := c.isAlphanum || c ∈ ['-', '.', '_', '~']

/-- A segment, a key or a value as it is sent. -/
def encodeWord (w : String) : List Char := percentEncode unreserved w.toList

/-- `key=value`. -/
def encodeParam (p : String × String) : List Char := encodeWord p.1 ++ '=' :: encodeWord p.2

/-- The path. -/
def encodePath (segments : List String) : List Char :=
  '/' :: ['/'].intercalate (segments.map encodeWord)

/-- Path and query. -/
def encodeTarget (segments : List String) (params : List (String × String)) : List Char :=
  if params = [] then encodePath segments
  else encodePath segments ++ '?' :: ['&'].intercalate (params.map encodeParam)

/-- Every character is a byte. -/
def Bytes (w : String) : Prop := ∀ c ∈ w.toList, c.toNat < 256

/-- What can be sent.  A path of one empty segment would be the same target as none, and a first
segment `.` in front of others is not read as one. -/
structure Sendable (segments : List String) (params : List (String × String)) : Prop where
  notRoot : segments ≠ [""]
  notDotted : ∀ rest, segments = "." :: rest → rest = []
  segments : ∀ s ∈ segments, Bytes s
  params : ∀ p ∈ params, Bytes p.1 ∧ Bytes p.2

/-- What is assumed of the parser: it reads a target as the RFC does.  Boost.URL leaves out the
`/.` at the front of `/./usr`, so nothing is assumed of a target that begins with `/./`. -/
def ReadsTargets (boost : Boost) : Prop :=
  ∀ target : String, ¬ ['/', '.', '/'] <+: target.toList →
    boost.parseOriginForm target = rfcParseOriginForm target

/-! ## Reading it back -/

variable (extra : Char → Bool)

lemma unreserved_plain {c : Char} (h : unreserved c = true) :
    c ≠ '%' ∧ c ≠ '+' ∧ pchar c = true := by
  have halpha : ∀ d : Char, d.isAlphanum = false → d ∉ ['-', '.', '_', '~'] → c ≠ d := by
    rintro d hd hmem rfl
    simp [unreserved, hd, hmem] at h
  refine ⟨halpha _ (by decide) (by decide), halpha _ (by decide) (by decide), ?_⟩
  simp only [unreserved, Bool.or_eq_true, decide_eq_true_eq, List.mem_cons] at h
  simp only [pchar, Bool.or_eq_true, decide_eq_true_eq, List.mem_cons]
  grind

lemma decodeSegment_encodeWord {s : String} (hs : Bytes s) :
    decodeSegment extra (encodeWord s) = some s := by
  unfold decodeSegment encodeWord
  rw [percentDecode_percentEncode _ _ hs, Option.map_some, String.ofList_toList]
  intro c hc
  obtain ⟨hpercent, -, hplain⟩ := unreserved_plain hc
  exact ⟨hpercent, by simp [segmentChar, hplain]⟩

lemma decodeWord_encodeWord {w : String} (hw : Bytes w) :
    decodeWord extra (encodeWord w) = some w := by
  unfold decodeWord encodeWord
  rw [percentDecode_percentEncode _ _ hw, Option.map_some, String.ofList_toList]
  intro c hc
  obtain ⟨hpercent, hplus, hplain⟩ := unreserved_plain hc
  exact ⟨hpercent, by simp [queryChar, hplus, hplain]⟩

/-- Two texts with one encoding are one. -/
lemma encodeWord_inj {w w' : String} (hw : Bytes w) (hw' : Bytes w')
    (h : encodeWord w = encodeWord w') : w = w' := by
  have hsame := decodeWord_encodeWord (fun _ => false) hw
  rw [h, decodeWord_encodeWord _ hw'] at hsame
  exact (Option.some.inj hsame).symm

/-- A separator of the target occurs in no encoded text. -/
lemma not_mem_encodeWord {sep : Char} (hsep : sep ∈ ['/', '?', '&', '=', '|']) {w : String}
    (hw : Bytes w) : sep ∉ encodeWord w := by
  have hplain : ∀ d ∈ ['/', '?', '&', '=', '|'],
      unreserved d = false ∧ d ≠ '%' ∧ hexValue d = none := by
    intro d hd
    simp only [List.mem_cons, List.not_mem_nil, or_false] at hd
    rcases hd with rfl | rfl | rfl | rfl | rfl <;> decide
  obtain ⟨hkeep, hpercent, hdigit⟩ := hplain sep hsep
  exact not_mem_percentEncode hkeep hpercent hdigit hw

lemma not_mem_encodeParam {sep : Char} (hsep : sep ∈ ['/', '?', '&', '|'])
    {p : String × String} (hp : Bytes p.1 ∧ Bytes p.2) : sep ∉ encodeParam p := by
  have hne : sep ≠ '=' := by
    rintro rfl
    simp at hsep
  have hmem : sep ∈ ['/', '?', '&', '=', '|'] := by
    simp only [List.mem_cons] at hsep ⊢
    tauto
  simp [encodeParam, hne, not_mem_encodeWord hmem hp.1, not_mem_encodeWord hmem hp.2]

lemma mem_intercalate {sep c : Char} (hne : c ≠ sep) :
    ∀ {pieces : List (List Char)}, (∀ p ∈ pieces, c ∉ p) → c ∉ [sep].intercalate pieces
  | [] => by simp
  | [p] => by simp
  | p :: q :: rest => by
      intro h
      have hrest := mem_intercalate hne fun p' hp' => h p' (List.mem_cons_of_mem p hp')
      simp [List.intercalate_cons_cons, hne, h p, hrest]

/-- Pieces that are read back one by one are read back together. -/
lemma mapM_map_eq_some {α β : Type} {encode : α → β} {decode : β → Option α} :
    ∀ {l : List α}, (∀ a ∈ l, decode (encode a) = some a) →
      (l.map encode).mapM decode = some l := by
  intro l
  induction l with
  | nil => simp
  | cons a l ih =>
      intro h
      rw [List.forall_mem_cons] at h
      simp [List.mapM_cons, h.1, ih h.2]

lemma encodeWord_eq_nil {w : String} : encodeWord w = [] ↔ w = "" := by
  rw [encodeWord, percentEncode, List.flatMap_eq_nil_iff, ← String.toList_eq_nil_iff]
  constructor
  · intro h
    refine List.eq_nil_iff_forall_not_mem.mpr fun c hc => ?_
    have hnil := h c hc
    split_ifs at hnil
    simp [escapeOf] at hnil
  · intro h
    simp [h]

lemma decodePath_encodePath {segments : List String} (hroot : segments ≠ [""])
    (hs : ∀ s ∈ segments, Bytes s) : decodePath extra (encodePath segments) = some segments := by
  by_cases hempty : segments = []
  · subst hempty
    rfl
  · have hpieces : segments.map encodeWord ≠ [] := by simpa using hempty
    have hslash : ∀ p ∈ segments.map encodeWord, '/' ∉ p := by
      simp only [List.mem_map, forall_exists_index, and_imp, forall_apply_eq_imp_iff₂]
      exact fun s hmem => not_mem_encodeWord (by decide) (hs s hmem)
    have hsplit := List.splitOn_intercalate '/' hslash hpieces
    have hnonempty : ['/'].intercalate (segments.map encodeWord) ≠ [] := by
      intro hnil
      rw [hnil, List.splitOn_nil] at hsplit
      rcases segments with _ | ⟨s, _ | ⟨s', rest⟩⟩
      · exact hempty rfl
      · simp [eq_comm, encodeWord_eq_nil] at hsplit
        exact hroot (by rw [hsplit])
      · simp at hsplit
    rw [encodePath, decodePath, if_neg hnonempty, hsplit,
      mapM_map_eq_some fun s hmem => decodeSegment_encodeWord extra (hs s hmem)]

lemma cut_encodeParam {p : String × String} (hp : Bytes p.1) :
    cut '=' (encodeParam p) = (encodeWord p.1, some (encodeWord p.2)) :=
  cut_append (not_mem_encodeWord (by decide) hp) _

lemma splitOn_encodeParams {params : List (String × String)} (hne : params ≠ [])
    (hp : ∀ p ∈ params, Bytes p.1 ∧ Bytes p.2) :
    (['&'].intercalate (params.map encodeParam)).splitOn '&' = params.map encodeParam := by
  refine List.splitOn_intercalate '&' ?_ (by simpa using hne)
  simp only [List.mem_map, forall_exists_index, and_imp, forall_apply_eq_imp_iff₂]
  exact fun p hmem => not_mem_encodeParam (by decide) (hp p hmem)

lemma decodeParam_encodeParam {p : String × String} (hp : Bytes p.1 ∧ Bytes p.2) :
    decodeParam extra (encodeParam p) = some p := by
  rw [decodeParam, cut_encodeParam hp.1, Option.getD_some, decodeWord_encodeWord extra hp.1,
    decodeWord_encodeWord extra hp.2, Option.bind_some, Option.map_some]

section Sent

variable {segments : List String} {params : List (String × String)}

lemma not_mem_encodePath {sep : Char} (hsep : sep ∈ ['?', '|'])
    (hs : ∀ s ∈ segments, Bytes s) : sep ∉ encodePath segments := by
  have hne : sep ≠ '/' := by
    rintro rfl
    simp at hsep
  have hmem : sep ∈ ['/', '?', '&', '=', '|'] := by
    simp only [List.mem_cons] at hsep ⊢
    tauto
  have hjoined : sep ∉ ['/'].intercalate (segments.map encodeWord) := by
    refine mem_intercalate hne ?_
    simp only [List.mem_map, forall_exists_index, and_imp, forall_apply_eq_imp_iff₂]
    exact fun s h => not_mem_encodeWord hmem (hs s h)
  simp [encodePath, hne, hjoined]

/-- What a symbol does not occur in ends before it. -/
lemma prefix_of_append_cons {α : Type} {p front back : List α} {c : α} (hc : c ∉ p)
    (h : p <+: front ++ c :: back) : p <+: front := by
  rcases List.prefix_or_prefix_of_prefix h (List.prefix_append front _) with hp | ⟨rest, rfl⟩
  · exact hp
  · rw [List.prefix_append_right_inj] at h
    rcases rest with _ | ⟨d, rest⟩
    · simp
    · simp [(List.cons_prefix_cons.mp h).1] at hc

/-- Only a first segment `.` is written as one. -/
lemma not_dotted_encodePath (hdot : ∀ rest, segments = "." :: rest → rest = [])
    (hs : ∀ s ∈ segments, Bytes s) : ¬ ['/', '.', '/'] <+: encodePath segments := by
  intro h
  have hfirst : ['.', '/'] <+: ['/'].intercalate (segments.map encodeWord) :=
    (List.cons_prefix_cons.mp h).2
  rcases segments with _ | ⟨s, rest⟩
  · simp at hfirst
  have hbytes : Bytes s := hs s List.mem_cons_self
  have hslash : '/' ∉ encodeWord s := not_mem_encodeWord (by decide) hbytes
  rcases rest with _ | ⟨s', rest⟩
  · rw [List.map_singleton, List.intercalate_singleton] at hfirst
    exact hslash (hfirst.subset (by simp))
  rw [List.map_cons, List.map_cons, List.intercalate_cons_cons, List.append_assoc] at hfirst
  rcases hword : encodeWord s with _ | ⟨c, _ | ⟨d, word⟩⟩
  · simp [hword] at hfirst
  · -- the word is a dot, and there are others behind it
    have hc : '.' = c := by simpa [hword] using hfirst
    have hsame : encodeWord s = encodeWord "." := by
      rw [hword, ← hc]
      decide
    obtain rfl := encodeWord_inj hbytes (by simp [Bytes]) hsame
    exact List.cons_ne_nil _ _ (hdot _ rfl)
  · have hd : '/' = d := by
      rw [hword, List.cons_append, List.cons_append, List.cons_prefix_cons,
        List.cons_prefix_cons] at hfirst
      exact hfirst.2.1
    subst hd
    exact hslash (by simp [hword])

lemma not_dotted_encodeTarget (h : Sendable segments params) :
    ¬ ['/', '.', '/'] <+: encodeTarget segments params := by
  have hpath := not_dotted_encodePath h.notDotted h.segments
  unfold encodeTarget
  split_ifs
  · exact hpath
  · exact fun hprefix => hpath (prefix_of_append_cons (by decide) hprefix)

lemma cut_encodeTarget (h : Sendable segments params) :
    cut '?' (encodeTarget segments params) =
      (encodePath segments,
        if params = [] then none else some (['&'].intercalate (params.map encodeParam))) := by
  have hquestion : '?' ∉ encodePath segments := not_mem_encodePath (by decide) h.segments
  unfold encodeTarget
  split_ifs
  · exact cut_of_not_mem hquestion
  · exact cut_append hquestion _

/-- **Round trip.**  The parser reads what the client wrote. -/
theorem originForm_encodeTarget (h : Sendable segments params) :
    originForm extra (encodeTarget segments params) = some (segments, params) := by
  rw [originForm, cut_encodeTarget h, decodePath_encodePath extra h.notRoot h.segments,
    Option.bind_some]
  split_ifs with hparams
  · rw [hparams]
    rfl
  · rw [Option.elim_some, decodeQuery, splitOn_encodeParams hparams h.params,
      mapM_map_eq_some fun p hp => decodeParam_encodeParam extra (h.params p hp),
      Option.map_some]

/-- A parameter in the spelling it is sent in. -/
def sentSpelling (p : String × String) : String × String :=
  (String.ofList (encodeWord p.1), String.ofList (encodeWord p.2))

lemma encodedParams_encodeTarget (h : Sendable segments params) :
    encodedParams (encodeTarget segments params) = params.map sentSpelling := by
  rw [encodedParams, cut_encodeTarget h]
  split_ifs with hparams
  · rw [hparams]
    rfl
  · rw [Option.elim_some, splitOn_encodeParams hparams h.params, List.map_map]
    refine List.map_congr_left fun p hp => ?_
    rw [Function.comp_apply, cut_encodeParam (h.params p hp).1]
    rfl

lemma pipe_not_mem_encodeTarget (h : Sendable segments params) :
    '|' ∉ encodeTarget segments params := by
  have hpath : '|' ∉ encodePath segments := not_mem_encodePath (by decide) h.segments
  have hquery : '|' ∉ ['&'].intercalate (params.map encodeParam) := by
    refine mem_intercalate (by decide) ?_
    simp only [List.mem_map, forall_exists_index, and_imp, forall_apply_eq_imp_iff₂]
    exact fun p hmem => not_mem_encodeParam (by decide) (h.params p hmem)
  unfold encodeTarget
  split_ifs <;> simp [hpath, hquery]

end Sent

/-! ## What a handler receives -/

section Received

variable {H : Type} {ctx : Context H} {segments : List String} {params : List (String × String)}
  {request : RequestMessage}

/-- There is no `|` to escape, so the parser gets the target as it was sent. -/
lemma parse_sentTarget (h : Sendable segments params)
    (htarget : request.target = String.ofList (encodeTarget segments params))
    (hparse : ReadsTargets ctx.boost) :
    ctx.boost.parseOriginForm (originTarget request) =
      some ⟨segments, params, params.map sentSpelling⟩ := by
  have hchars : request.target.toList = encodeTarget segments params := by
    rw [htarget, String.toList_ofList]
  have horigin : originTarget request = request.target := by
    rw [originTarget, if_neg]
    rw [hchars]
    exact fun hpipe => pipe_not_mem_encodeTarget h hpipe.2
  have hread := hparse request.target (by rw [hchars]; exact not_dotted_encodeTarget h)
  rw [horigin, hread, rfcParseOriginForm, hchars, originForm_encodeTarget _ h,
    encodedParams_encodeTarget h, Option.map_some]

lemma sentSpelling_fst_inj {p p' : String × String} (hp : Bytes p.1) (hp' : Bytes p'.1) :
    (sentSpelling p).1 = (sentSpelling p').1 ↔ p.1 = p'.1 := by
  constructor
  · intro h
    exact encodeWord_inj hp hp' (String.ofList_injective h)
  · intro h
    rw [sentSpelling, sentSpelling, h]

/-- The parameters that survive do so under their spellings. -/
lemma survives_sentSpelling (hp : ∀ p ∈ params, Bytes p.1 ∧ Bytes p.2)
    (entry : String × String) :
    Survives (params.map sentSpelling) entry ↔
      ∃ p, Survives params p ∧ entry = sentSpelling p := by
  constructor
  · rintro ⟨before, after, hsplit, hafter⟩
    obtain ⟨before', rest, rfl, rfl, hrest⟩ := List.map_eq_append_iff.mp hsplit
    obtain ⟨p, after', rfl, rfl, rfl⟩ := List.map_eq_cons_iff.mp hrest
    refine ⟨p, ⟨before', after', rfl, fun later hlater hkey => ?_⟩, rfl⟩
    refine hafter (sentSpelling later) (List.mem_map_of_mem hlater) ?_
    rw [sentSpelling, sentSpelling, hkey]
  · rintro ⟨p, ⟨before, after, rfl, hafter⟩, rfl⟩
    refine ⟨before.map sentSpelling, after.map sentSpelling, by simp, fun later hlater => ?_⟩
    obtain ⟨q, hq, rfl⟩ := List.mem_map.mp hlater
    rw [Ne, sentSpelling_fst_inj (hp q (by simp [hq])).1 (hp p (by simp)).1]
    exact hafter q hq

/-- **What was sent is what is handled.**  The router looks up the segments the client wrote, and
the handler it returns receives them, and for each key the value of its last parameter: as
written when decoding is on, in the spelling that was sent when it is off. -/
theorem sent_target_received (ctx : Context H) (segments : List String)
    (params : List (String × String)) (h : Sendable segments params) (request : RequestMessage)
    (htarget : request.target = String.ofList (encodeTarget segments params))
    (hparse : ReadsTargets ctx.boost)
    (sessionId requestId : UInt64) (now : Nat) (handler : H) :
    ((∃ r, ctx.dispatch request sessionId requestId now = .handle handler r) ↔
      ctx.router.searchSegments segments = some handler ∧
        request.method.toNat ≤ Verb.put.toNat) ∧
    ∀ r, ctx.dispatch request sessionId requestId now = .handle handler r →
      r.segments = segments ∧
      ∀ entry, entry ∈ r.params.entries ↔
        ∃ p, Survives params p ∧
          entry = if ctx.opts.autoDecodeUrlParameters then p else sentSpelling p := by
  have hsent := parse_sentTarget h htarget hparse
  constructor
  · rw [Context.handles_iff, Context.found, hsent, Option.bind_some]
  · intro r hr
    obtain ⟨url, hurl, -, -, rfl⟩ := Context.dispatch_eq_handle_iff.mp hr
    rw [hsent] at hurl
    obtain rfl := Option.some.inj hurl
    refine ⟨rfl, fun entry => ?_⟩
    rw [mem_assignAll]
    split_ifs
    · simp
    · exact survives_sentSpelling h.params entry

/-- `GET /a%20b/%7C?k%26=1&k%26=%2B`. -/
def sentRequest : RequestMessage :=
  getRequest (String.ofList (encodeTarget ["a b", "|"] [("k&", "1"), ("k&", "+")]))

/-- A server with a handler for `/a b`, whose parser follows the RFC. -/
def spaceContext : Context Nat where
  boost := { plainBoost with parseOriginForm := rfcParseOriginForm }
  opts := {}
  router := ⟨(HttpPathNode.new "").insert 7 ["a b"]⟩

theorem sent_target_received_spaces :
    ∃ r, spaceContext.dispatch sentRequest 1 1 0 = .handle 7 r ∧ r.segments = ["a b", "|"] ∧
      ("k&", "+") ∈ r.params.entries := by
  have hsendable : Sendable ["a b", "|"] [("k&", "1"), ("k&", "+")] := by
    refine ⟨by decide, ?_, ?_, ?_⟩ <;> simp [Bytes]
  have htarget : ∀ target, (getRequest target).target = target := fun _ => rfl
  have hparse : ReadsTargets spaceContext.boost := fun _ _ => rfl
  have hfound : spaceContext.router.searchSegments ["a b", "|"] = some 7 := by decide
  have hverb : sentRequest.method.toNat ≤ Verb.put.toNat := by decide
  have hlast : Survives [("k&", "1"), ("k&", "+")] (("k&", "+") : String × String) :=
    ⟨[("k&", "1")], [], rfl, by simp⟩
  obtain ⟨hreached, hreceived⟩ := sent_target_received spaceContext ["a b", "|"]
    [("k&", "1"), ("k&", "+")] hsendable sentRequest (htarget _) hparse 1 1 0 7
  obtain ⟨r, hr⟩ := hreached.mpr ⟨hfound, hverb⟩
  obtain ⟨hsegments, hparams⟩ := hreceived r hr
  exact ⟨r, hr, hsegments, (hparams _).mpr ⟨_, hlast, rfl⟩⟩

end Received

end HttpServer
