import Mathlib.Data.List.Infix
import HttpServerCpp.Message.HttpTypes

/-!
# Assembling a response

`writeResponseMessage` is `HttpSession::writeResponse` up to its last statement, `doWrite()`: what
it makes of `response_` from the request it answers and the `HttpResponse` a handler sent.

The field lemmas say what each stage leaves under a name, so that later files never unfold the
assembly: `find_writeResponseMessage` for the names only the keep-alive call and the user's
headers touch, and `keepAlive_writeResponseMessage` for the connection's fate in terms of the
inputs.
-/

namespace HttpServer

/-- `boost::icontains`. -/
def icontains (text part : String) : Prop := foldCase part <:+: foldCase text

instance (text part : String) : Decidable (icontains text part) :=
  inferInstanceAs (Decidable (foldCase part <:+: foldCase text))

variable (boost : Boost)

/-- The test for protocol gzip: a body of more than 500 bytes, the option, and a request whose
`Accept-Encoding` contains `gzip` or `*`. -/
def autoGzips (opts : HttpServerOptions) (request : RequestMessage) (rsp : HttpResponse) : Prop :=
  rsp.body.length > 500 ∧ opts.autoGzip = true ∧
    (icontains (request.fields.get "Accept-Encoding") "gzip" ∨
      icontains (request.fields.get "Accept-Encoding") "*")

instance (opts : HttpServerOptions) (request : RequestMessage) (rsp : HttpResponse) :
    Decidable (autoGzips opts request rsp) :=
  inferInstanceAs (Decidable (_ ∧ _ ∧ _))

/-- `HttpSession::writeResponse` up to `doWrite()`. -/
def writeResponseMessage (opts : HttpServerOptions) (request : RequestMessage)
    (rsp : HttpResponse) (response : ResponseMessage) : ResponseMessage :=
  -- common header
  let response :=
    if rsp.forceDisableKeepAlive then response.setKeepAlive boost false
    else response.setKeepAlive boost (request.keepAlive boost)
  let response := { response with result := rsp.status.toNat }
  let response := response.set "Content-Type" rsp.contentType
  -- user set header
  let response := { response with fields := response.fields.setAll rsp.headers.entries }
  let gzipped :=
    (response.set "Content-Encoding" "gzip", boost.gzip rsp.compressionLevel rsp.body)
  let (response, body) :=
    if rsp.forceGzip then gzipped
    else if autoGzips opts request rsp then gzipped
    else (response, rsp.body)
  if body.length > 0 then
    let response :=
      if request.method ≠ .head then { response with body := response.body ++ body } else response
    response.preparePayload boost
  else response

/-! ## What each stage leaves under a name -/

/-- The message after the two stages every response goes through, before any gzip. -/
def headedMessage (request : RequestMessage) (rsp : HttpResponse) (response : ResponseMessage) :
    ResponseMessage :=
  let response := response.setKeepAlive boost
    (!rsp.forceDisableKeepAlive && request.keepAlive boost)
  let response := { response with result := rsp.status.toNat }
  let response := response.set "Content-Type" rsp.contentType
  { response with fields := response.fields.setAll rsp.headers.entries }

/-- Whether the body is gzip-coded. -/
def gzips (opts : HttpServerOptions) (request : RequestMessage) (rsp : HttpResponse) : Prop :=
  rsp.forceGzip = true ∨ autoGzips opts request rsp

instance (opts : HttpServerOptions) (request : RequestMessage) (rsp : HttpResponse) :
    Decidable (gzips opts request rsp) :=
  inferInstanceAs (Decidable (_ ∨ _))

/-- The octets `writeResponse` has to deliver. -/
def codedBody (opts : HttpServerOptions) (request : RequestMessage) (rsp : HttpResponse) : String :=
  if gzips opts request rsp then boost.gzip rsp.compressionLevel rsp.body else rsp.body

/-- The assembly, stage by stage. -/
lemma writeResponseMessage_eq (opts : HttpServerOptions) (request : RequestMessage)
    (rsp : HttpResponse) (response : ResponseMessage) :
    writeResponseMessage boost opts request rsp response =
      let headed := headedMessage boost request rsp response
      let coded := if gzips opts request rsp then headed.set "Content-Encoding" "gzip" else headed
      let body := codedBody boost opts request rsp
      if body = "" then coded
      else if request.method = .head then coded.preparePayload boost
      else ({ coded with body := coded.body ++ body } : ResponseMessage).preparePayload boost := by
  have hkeep : (if rsp.forceDisableKeepAlive then response.setKeepAlive boost false
      else response.setKeepAlive boost (request.keepAlive boost)) =
      response.setKeepAlive boost (!rsp.forceDisableKeepAlive && request.keepAlive boost) := by
    cases rsp.forceDisableKeepAlive <;> simp
  have hlen : ∀ body : String, body.length > 0 ↔ ¬ body = "" := fun body => by
    rw [gt_iff_lt, Nat.pos_iff_ne_zero, Ne, String.length_eq_zero_iff]
  simp only [writeResponseMessage, hkeep, hlen, codedBody, gzips, headedMessage, ne_eq, ite_not,
    apply_ite (ResponseMessage.preparePayload boost)]
  by_cases hforce : rsp.forceGzip = true
  · simp only [hforce, if_true, true_or]
  · by_cases hauto : autoGzips opts request rsp
    · simp only [hforce, hauto, if_true, if_false, or_true, Bool.false_eq_true]
    · simp only [hforce, hauto, if_false, or_false, Bool.false_eq_true]

namespace ResponseMessage

variable {boost}

@[simp] lemma set_body (m : ResponseMessage) (name value : String) :
    (m.set name value).body = m.body := rfl

lemma named_set (m : ResponseMessage) (name value name' : String) :
    (m.set name value).fields.named name' =
      if SameName name' name then [value] else m.fields.named name' :=
  Fields.named_set m.fields name value name'

lemma find_set (m : ResponseMessage) (name value name' : String) :
    (m.set name value).fields.find name' =
      if SameName name' name then some value else m.fields.find name' :=
  Fields.find_set m.fields name value name'

@[simp] lemma setKeepAlive_body (m : ResponseMessage) (b : Bool) :
    (m.setKeepAlive boost b).body = m.body := by
  unfold setKeepAlive
  dsimp only
  split_ifs <;> rfl

@[simp] lemma preparePayload_body (m : ResponseMessage) :
    (m.preparePayload boost).body = m.body := by
  unfold preparePayload
  dsimp only
  split
  · rfl
  · split_ifs <;> rfl

/-- The keep-alive call touches `Connection` and nothing else. -/
lemma named_setKeepAlive (m : ResponseMessage) (b : Bool) {name : String}
    (h : ¬ SameName name "Connection") :
    (m.setKeepAlive boost b).fields.named name = m.fields.named name := by
  unfold setKeepAlive
  dsimp only
  split_ifs
  · rw [Fields.named_erase, if_neg h]
  · rw [named_set, if_neg h]

lemma find_setKeepAlive (m : ResponseMessage) (b : Bool) {name : String}
    (h : ¬ SameName name "Connection") :
    (m.setKeepAlive boost b).fields.find name = m.fields.find name := by
  rw [Fields.find_eq_head?, named_setKeepAlive m b h, ← Fields.find_eq_head?]

/-- What `prepare_payload` leaves of a transfer coding. -/
def preparedCoding (boost : Boost) (value : String) : List String :=
  if boost.withoutChunked value = "" then [] else [boost.withoutChunked value]

/-- `prepare_payload` rewrites the transfer coding, announces the size of the body, and touches
nothing else. -/
lemma named_preparePayload (m : ResponseMessage) (name : String) :
    (m.preparePayload boost).fields.named name =
      if SameName name "Transfer-Encoding" then
        (m.fields.find "Transfer-Encoding").elim [] (preparedCoding boost)
      else if SameName name "Content-Length" then [toString m.body.length]
      else m.fields.named name := by
  have hfind : (m.set "Content-Length" (toString m.body.length)).fields.find
      "Transfer-Encoding" = m.fields.find "Transfer-Encoding" := by
    rw [find_set, if_neg (by decide)]
  unfold preparePayload preparedCoding
  simp only [hfind]
  by_cases hte : SameName name "Transfer-Encoding"
  · rw [if_pos hte]
    cases hcoding : m.fields.find "Transfer-Encoding" with
    | none =>
        rw [← hfind, Fields.find_eq_head?, List.head?_eq_none_iff] at hcoding
        rw [Option.elim_none, Fields.named_congr _ hte, hcoding]
    | some value =>
        simp only [Option.elim_some]
        split_ifs
        · rw [Fields.named_erase, if_pos hte]
        · rw [named_set, if_pos hte]
  · rw [if_neg hte]
    cases m.fields.find "Transfer-Encoding" with
    | none => exact named_set _ _ _ _
    | some value =>
        dsimp only
        split_ifs with hcoding hlen hlen
        · rw [Fields.named_erase, if_neg hte, named_set, if_pos hlen]
        · rw [Fields.named_erase, if_neg hte, named_set, if_neg hlen]
        · rw [named_set, if_neg hte, named_set, if_pos hlen]
        · rw [named_set, if_neg hte, named_set, if_neg hlen]

lemma find_preparePayload (m : ResponseMessage) {name : String}
    (hlen : ¬ SameName name "Content-Length") (hte : ¬ SameName name "Transfer-Encoding") :
    (m.preparePayload boost).fields.find name = m.fields.find name := by
  rw [Fields.find_eq_head?, named_preparePayload, if_neg hte, if_neg hlen, ← Fields.find_eq_head?]

/-- `prepare_payload` announces the size of the body. -/
lemma find_contentLength_preparePayload (m : ResponseMessage) :
    (m.preparePayload boost).fields.find "Content-Length" = some (toString m.body.length) := by
  rw [Fields.find_eq_head?, named_preparePayload, if_neg (by decide), if_pos (SameName.refl _)]
  rfl

end ResponseMessage

variable {boost}

/-- Without a `Transfer-Encoding`, `prepare_payload` sets `Content-Length` and that is all. -/
lemma preparePayload_of_find_none {m : ResponseMessage}
    (h : m.fields.find "Transfer-Encoding" = none) :
    m.preparePayload boost = m.set "Content-Length" (toString m.body.length) := by
  have hset : (m.set "Content-Length" (toString m.body.length)).fields.find "Transfer-Encoding" =
      none := by
    rw [ResponseMessage.find_set, if_neg (by decide), h]
  unfold ResponseMessage.preparePayload
  simp only [hset]

lemma named_headedMessage (request : RequestMessage) (rsp : HttpResponse)
    (response : ResponseMessage) (name : String) :
    (headedMessage boost request rsp response).fields.named name =
      (lastNamed rsp.headers.entries name).elim
        (if SameName name "Content-Type" then [rsp.contentType]
         else (response.setKeepAlive boost
          (!rsp.forceDisableKeepAlive && request.keepAlive boost)).fields.named name)
        fun value => [value] := by
  simp only [headedMessage, Fields.named_setAll, ResponseMessage.named_set]

lemma find_headedMessage (request : RequestMessage) (rsp : HttpResponse)
    (response : ResponseMessage) (name : String) :
    (headedMessage boost request rsp response).fields.find name =
      (lastNamed rsp.headers.entries name).or
        (if SameName name "Content-Type" then some rsp.contentType
         else (response.setKeepAlive boost
          (!rsp.forceDisableKeepAlive && request.keepAlive boost)).fields.find name) := by
  simp only [headedMessage, Fields.find_setAll, ResponseMessage.find_set]

/-- Under a name that neither gzip nor the size of the body is written to stands what the two
common stages left there, except that a body in the message has its transfer coding prepared. -/
lemma named_writeResponseMessage (opts : HttpServerOptions) (request : RequestMessage)
    (rsp : HttpResponse) (response : ResponseMessage) {name : String}
    (henc : ¬ SameName name "Content-Encoding") (hlen : ¬ SameName name "Content-Length") :
    (writeResponseMessage boost opts request rsp response).fields.named name =
      if SameName name "Transfer-Encoding" ∧ codedBody boost opts request rsp ≠ "" then
        ((headedMessage boost request rsp response).fields.find "Transfer-Encoding").elim []
          (ResponseMessage.preparedCoding boost)
      else (headedMessage boost request rsp response).fields.named name := by
  rw [writeResponseMessage_eq]
  generalize headedMessage boost request rsp response = headed
  dsimp only
  generalize hcoded : (if gzips opts request rsp then
    headed.set "Content-Encoding" "gzip" else headed) = coded
  have hnamed : coded.fields.named name = headed.fields.named name := by
    rw [← hcoded]
    split_ifs
    · rw [ResponseMessage.named_set, if_neg henc]
    · rfl
  have hcoding : coded.fields.find "Transfer-Encoding" =
      headed.fields.find "Transfer-Encoding" := by
    rw [← hcoded]
    split_ifs
    · rw [ResponseMessage.find_set, if_neg (by decide)]
    · rfl
  have hprepared : ∀ octets, (({ coded with body := octets } : ResponseMessage).preparePayload
      boost).fields.named name =
      if SameName name "Transfer-Encoding" then
        (headed.fields.find "Transfer-Encoding").elim [] (ResponseMessage.preparedCoding boost)
      else headed.fields.named name := by
    intro octets
    rw [ResponseMessage.named_preparePayload, if_neg hlen]
    exact congrArg₂ (fun coding rest => if SameName name "Transfer-Encoding" then
      Option.elim coding [] (ResponseMessage.preparedCoding boost) else rest) hcoding hnamed
  by_cases hempty : codedBody boost opts request rsp = ""
  · rw [if_pos hempty, if_neg fun h => h.2 hempty, hnamed]
  · simp only [Ne, hempty, if_false, not_false_eq_true, and_true]
    by_cases hhead : request.method = .head
    · rw [if_pos hhead]
      exact hprepared coded.body
    · rw [if_neg hhead]
      exact hprepared _

/-- Under a name that `prepare_payload` does not write either stands what the user's headers left
there, or else what was there before them. -/
lemma find_writeResponseMessage (opts : HttpServerOptions) (request : RequestMessage)
    (rsp : HttpResponse) (response : ResponseMessage) {name : String}
    (henc : ¬ SameName name "Content-Encoding") (hlen : ¬ SameName name "Content-Length")
    (hte : ¬ SameName name "Transfer-Encoding") :
    (writeResponseMessage boost opts request rsp response).fields.find name =
      (lastNamed rsp.headers.entries name).or
        (if SameName name "Content-Type" then some rsp.contentType
         else (response.setKeepAlive boost
          (!rsp.forceDisableKeepAlive && request.keepAlive boost)).fields.find name) := by
  rw [← find_headedMessage, Fields.find_eq_head?, named_writeResponseMessage _ _ _ _ henc hlen,
    if_neg fun h => hte h.1, ← Fields.find_eq_head?]

/-! ## What a response does not depend on -/

/-- The body of the request has no part in the response. -/
lemma writeResponseMessage_clearBody (opts : HttpServerOptions) (request : RequestMessage)
    (rsp : HttpResponse) (response : ResponseMessage) :
    writeResponseMessage boost opts request.clearBody rsp response =
      writeResponseMessage boost opts request rsp response := rfl

/-- Nor has the status of the response before it, once fields and body are cleared. -/
lemma writeResponseMessage_clear (opts : HttpServerOptions) (request : RequestMessage)
    (rsp : HttpResponse) (response : ResponseMessage) :
    writeResponseMessage boost opts request rsp response.clear.clearBody =
      writeResponseMessage boost opts request rsp .fresh := by
  have hheaded : headedMessage boost request rsp response.clear.clearBody =
      headedMessage boost request rsp .fresh := by
    simp only [headedMessage, ResponseMessage.setKeepAlive]
    by_cases hvalue : boost.keepAliveValue (Fields.empty.get "Connection")
        (!rsp.forceDisableKeepAlive && request.keepAlive boost) = ""
    · simp only [ResponseMessage.clear, ResponseMessage.clearBody, ResponseMessage.fresh, hvalue,
        if_true]
    · simp only [ResponseMessage.clear, ResponseMessage.clearBody, ResponseMessage.fresh, hvalue,
        if_false]
      rfl
  rw [writeResponseMessage_eq, writeResponseMessage_eq, hheaded]

/-! ## The fate of the connection -/

/-- Whether the connection is kept, in terms of what came in: the last `Connection` header of the
user decides, and without one the handler's flag and the request do. -/
def keepsAlive (boost : Boost) (request : RequestMessage) (rsp : HttpResponse) : Bool :=
  match lastNamed rsp.headers.entries "Connection" with
  | some value => !boost.tokenListExists value "close"
  | none => !rsp.forceDisableKeepAlive && request.keepAlive boost

/-- `keep_alive()` reads back what `keep_alive(b)` has set. -/
lemma ResponseMessage.keepAlive_setKeepAlive (hdoc : boost.Documented) (m : ResponseMessage)
    (b : Bool) : (m.setKeepAlive boost b).keepAlive boost = b := by
  simp only [setKeepAlive, keepAlive]
  by_cases hvalue : boost.keepAliveValue (m.fields.get "Connection") b = ""
  · rw [if_pos hvalue, Fields.find_erase, if_pos (SameName.refl _), hdoc.keepAlive_unset _ _ hvalue]
  · rw [if_neg hvalue, find_set, if_pos (SameName.refl _)]
    simp [hdoc.keepAlive_set _ _ hvalue]

lemma keepAlive_writeResponseMessage (hdoc : boost.Documented) (opts : HttpServerOptions)
    (request : RequestMessage) (rsp : HttpResponse) (response : ResponseMessage) :
    (writeResponseMessage boost opts request rsp response).keepAlive boost =
      keepsAlive boost request rsp := by
  have hset := response.keepAlive_setKeepAlive hdoc
    (!rsp.forceDisableKeepAlive && request.keepAlive boost)
  unfold ResponseMessage.keepAlive at hset ⊢
  unfold keepsAlive
  rw [find_writeResponseMessage opts request rsp response (by decide) (by decide)
    (by decide), if_neg (by decide)]
  cases hlast : lastNamed rsp.headers.entries "Connection" with
  | some value => rfl
  | none =>
      rw [Option.none_or]
      exact hset

end HttpServer
