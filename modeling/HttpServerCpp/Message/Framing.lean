import HttpServerCpp.Message.WriteResponse

/-!
# Where a response ends

On a connection that stays open a response has to say where it ends.  `SelfDelimited` is that
property of a message about to be written: a `Content-Length` equal to the octets of its body, or
the chunked coding.

`writeResponse` calls `prepare_payload` only for a body that is not empty, so an empty one is
delimited only if the headers happen to do it.  `selfDelimited_iff` is the exact statement,
`Framed` adds the responses after which the connection is closed anyway, and `framed_clear` is
what remains of it when `response_` was cleared before.
-/

namespace HttpServer

variable {boost : Boost}

/-- The number a `Content-Length` value denotes. -/
def contentLength (value : String) : Option Nat :=
  if value ≠ "" ∧ value.toList.all Char.isDigit then some (Nat.ofDigitChars 10 value.toList 0)
  else none

/-- Decimal output is read back. -/
lemma contentLength_toString (n : Nat) : contentLength (toString n) = some n := by
  have htoList : (toString n).toList = Nat.toDigits 10 n := Nat.toList_repr
  have hne : toString n ≠ "" := fun h => by
    rw [h] at htoList
    exact Nat.toDigits_ne_nil htoList.symm
  have hdigits : (Nat.toDigits 10 n).all Char.isDigit = true := by
    rw [List.all_eq_true]
    exact fun c hc => Nat.isDigit_of_mem_toDigits (by decide) (by decide) hc
  rw [contentLength, htoList, if_pos ⟨hne, hdigits⟩, Nat.ofDigitChars_ten_toDigits]

/-- The message announces exactly the body octets it carries, or is chunked. -/
def SelfDelimited (boost : Boost) (m : ResponseMessage) : Prop :=
  (∃ value, m.fields.find "Content-Length" = some value ∧
    contentLength value = some m.body.length) ∨ m.chunked boost = true

/-- Without a payload: the value of the field that the user's headers leave in `response`. -/
def leftHeader (rsp : HttpResponse) (response : ResponseMessage) (name : String) : Option String :=
  (lastNamed rsp.headers.entries name).or (response.fields.find name)

/-- The headers delimit the body that is already there: `Content-Length` is its size or
`Transfer-Encoding` is chunked. -/
def HeadersDelimit (boost : Boost) (rsp : HttpResponse) (response : ResponseMessage) : Prop :=
  (∃ value, leftHeader rsp response "Content-Length" = some value ∧
    contentLength value = some response.body.length) ∨
  ∃ value, leftHeader rsp response "Transfer-Encoding" = some value ∧
    boost.chunkedValue value = true

lemma codedBody_eq_empty (hdoc : boost.Documented) (opts : HttpServerOptions)
    (request : RequestMessage) (rsp : HttpResponse) :
    codedBody boost opts request rsp = "" ↔ rsp.forceGzip = false ∧ rsp.body = "" := by
  have hauto : rsp.body = "" → ¬ autoGzips opts request rsp := fun h hauto => by
    have := hauto.1
    rw [h] at this
    simp at this
  unfold codedBody gzips
  by_cases hforce : rsp.forceGzip = true
  · simp [hforce, hdoc.gzip_ne_empty]
  · by_cases hauto' : autoGzips opts request rsp
    · simp only [hauto', or_true, if_true, hdoc.gzip_ne_empty, false_iff, not_and]
      exact fun _ h => hauto h hauto'
    · simp [hforce, hauto']

/-- Without octets to deliver there is no gzip and no payload: the message is what the headers
made of it. -/
lemma writeResponseMessage_of_empty (hdoc : boost.Documented) {opts : HttpServerOptions}
    {request : RequestMessage} {rsp : HttpResponse} (hempty : codedBody boost opts request rsp = "")
    (response : ResponseMessage) :
    writeResponseMessage boost opts request rsp response = headedMessage boost request rsp response := by
  obtain ⟨hforce, hbody⟩ := (codedBody_eq_empty hdoc opts request rsp).mp hempty
  have hgzips : ¬ gzips opts request rsp := by
    rintro (h | h)
    · simp [hforce] at h
    · have hlen := h.1
      rw [hbody] at hlen
      simp at hlen
  rw [writeResponseMessage_eq]
  simp only [hempty, if_pos, if_neg hgzips]

/-- With octets to deliver, `prepare_payload` runs last, on the very body that is written. -/
lemma find_contentLength_of_ne_empty {opts : HttpServerOptions} {request : RequestMessage}
    {rsp : HttpResponse} (hne : codedBody boost opts request rsp ≠ "") (response : ResponseMessage) :
    (writeResponseMessage boost opts request rsp response).fields.find "Content-Length" =
      some (toString (writeResponseMessage boost opts request rsp response).body.length) := by
  rw [writeResponseMessage_eq]
  simp only [if_neg hne]
  split_ifs <;>
    rw [ResponseMessage.find_contentLength_preparePayload, ResponseMessage.preparePayload_body]

/-- **When a response delimits itself**: its body is not empty, or the headers do it. -/
theorem selfDelimited_iff (hdoc : boost.Documented) (opts : HttpServerOptions)
    (request : RequestMessage) (rsp : HttpResponse) (response : ResponseMessage) :
    SelfDelimited boost (writeResponseMessage boost opts request rsp response) ↔
      rsp.forceGzip = true ∨ rsp.body ≠ "" ∨ HeadersDelimit boost rsp response := by
  by_cases hempty : codedBody boost opts request rsp = ""
  · obtain ⟨hforce, hbody⟩ := (codedBody_eq_empty hdoc opts request rsp).mp hempty
    have hleft : (headedMessage boost request rsp response).body = response.body := by
      simp [headedMessage]
    have hfind : ∀ name, ¬ SameName name "Content-Type" → ¬ SameName name "Connection" →
        (headedMessage boost request rsp response).fields.find name =
          leftHeader rsp response name := by
      intro name htype hconn
      rw [find_headedMessage, if_neg htype, ResponseMessage.find_setKeepAlive _ _ hconn, leftHeader]
    have hchunked : (headedMessage boost request rsp response).chunked boost = true ↔
        ∃ value, leftHeader rsp response "Transfer-Encoding" = some value ∧
          boost.chunkedValue value = true := by
      unfold ResponseMessage.chunked
      rw [hfind _ (by decide) (by decide)]
      cases leftHeader rsp response "Transfer-Encoding" <;> simp
    rw [writeResponseMessage_of_empty hdoc hempty, SelfDelimited, hfind _ (by decide) (by decide),
      hchunked, hleft]
    simp [hforce, hbody, HeadersDelimit]
  · have hdelimited : SelfDelimited boost
        (writeResponseMessage boost opts request rsp response) :=
      Or.inl ⟨_, find_contentLength_of_ne_empty hempty response, contentLength_toString _⟩
    refine ⟨fun _ => ?_, fun _ => hdelimited⟩
    by_contra hno
    push Not at hno
    exact hempty ((codedBody_eq_empty hdoc opts request rsp).mpr
      ⟨by simpa using hno.1, hno.2.1⟩)

/-- The response delimits itself or the connection is closed after it. -/
def Framed (boost : Boost) (request : RequestMessage) (rsp : HttpResponse)
    (response : ResponseMessage) : Prop :=
  rsp.forceGzip = true ∨ rsp.body ≠ "" ∨ HeadersDelimit boost rsp response ∨
    keepsAlive boost request rsp = false

/-- Into a cleared message: an empty body needs a `Content-Length` of zero or the chunked coding
among the user's own headers. -/
lemma framed_clear (request : RequestMessage) (rsp : HttpResponse) (response : ResponseMessage) :
    Framed boost request rsp response.clear.clearBody ↔
      rsp.forceGzip = true ∨ rsp.body ≠ "" ∨
        (∃ value, lastNamed rsp.headers.entries "Content-Length" = some value ∧
          contentLength value = some 0) ∨
        (∃ value, lastNamed rsp.headers.entries "Transfer-Encoding" = some value ∧
          boost.chunkedValue value = true) ∨
        keepsAlive boost request rsp = false := by
  have hleft : ∀ name, leftHeader rsp response.clear.clearBody name =
      lastNamed rsp.headers.entries name :=
    fun name => by simp [leftHeader, ResponseMessage.clear, ResponseMessage.clearBody]
  have hbody : response.clear.clearBody.body.length = 0 := rfl
  simp only [Framed, HeadersDelimit, hleft, hbody, or_assoc]

end HttpServer
