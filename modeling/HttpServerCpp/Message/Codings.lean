import HttpServerCpp.Message.WriteResponse

/-!
# What the written body is encoded with

A handler may send a body that it has coded itself and say so in a `Content-Encoding` header of
its own.  `writeResponse` compresses the body it is given and sets the field to `gzip`, whatever
stood there, so the handler's codings are no longer announced.

* `Codings` are the content codings of a client, each with its inverse; gzip among them.
* `Codings.received` is what a client makes of a message: it undoes the announced codings.
* `received_eq_meant_iff` compares it with what the handler meant.
-/

namespace HttpServer

/-! ## Codings -/

/-- The codings a `Content-Encoding` value lists, in the order in which they were applied. -/
def contentCodings (value : String) : List String :=
  (((foldCase value).splitOn ',').map fun part => String.ofList (trimBlanks part)).filter (· ≠ "")

/-- Content codings by name.  Each can be undone, and the one named `gzip` undoes the gzip filter
of the session at every level. -/
structure Codings (boost : Boost) where
  code : String → String → String
  undo : String → String → Option String
  undo_code : ∀ name content, undo name (code name content) = some content
  undo_gzip : ∀ level content, undo "gzip" (boost.gzip level content) = some content

namespace Codings

variable {boost : Boost}

/-- Undo a list of codings, the one applied last first. -/
def undoAll (C : Codings boost) (names : List String) (body : String) : Option String :=
  names.foldr (fun name content => content.bind (C.undo name)) (some body)

/-- What a body stands for under a `Content-Encoding` value. -/
def content (C : Codings boost) (encoding : Option String) (body : String) : Option String :=
  C.undoAll ((encoding.map contentCodings).getD []) body

/-- What a client makes of a written message. -/
def received (C : Codings boost) (m : ResponseMessage) : Option String :=
  C.content (m.fields.find "Content-Encoding") m.body

/-- What the handler meant: its body under the coding its headers declare.  Of several headers of
that name the last counts, as in the loop that sets them. -/
def meant (C : Codings boost) (rsp : HttpResponse) : Option String :=
  C.content (lastNamed rsp.headers.entries "Content-Encoding") rsp.body

/-- Under `gzip` alone, a compressed body stands for what was compressed. -/
lemma content_gzip (C : Codings boost) (level : CompressionLevel) (body : String) :
    C.content (some "gzip") (boost.gzip level body) = some body := by
  have hnames : contentCodings "gzip" = ["gzip"] := by decide
  simp [content, undoAll, hnames, C.undo_gzip]

end Codings

/-! ## The written message -/

section Written

variable {boost : Boost} (opts : HttpServerOptions) (request : RequestMessage)
  (rsp : HttpResponse) (response : ResponseMessage)

/-- Except for HEAD, the written body is the coded one, behind what the message held before. -/
lemma body_writeResponseMessage (hmethod : request.method ≠ .head) :
    (writeResponseMessage boost opts request rsp response).body =
      response.body ++ codedBody boost opts request rsp := by
  have hheaded : (headedMessage boost request rsp response).body = response.body := by
    simp [headedMessage]
  rw [writeResponseMessage_eq]
  dsimp only
  split_ifs with hgzips hbody <;> simp_all

/-- HEAD adds nothing to the body. -/
lemma body_writeResponseMessage_of_head (hmethod : request.method = .head) :
    (writeResponseMessage boost opts request rsp response).body = response.body := by
  have hheaded : (headedMessage boost request rsp response).body = response.body := by
    simp [headedMessage]
  rw [writeResponseMessage_eq]
  dsimp only
  split_ifs <;> simp_all

/-- The announced coding: `gzip` where the body was compressed, else what the handler declared,
else what stood in the message before. -/
lemma find_contentEncoding :
    (writeResponseMessage boost opts request rsp response).fields.find "Content-Encoding" =
      if gzips opts request rsp then some "gzip"
      else (lastNamed rsp.headers.entries "Content-Encoding").or
        (response.fields.find "Content-Encoding") := by
  have hheaded : (headedMessage boost request rsp response).fields.find "Content-Encoding" =
      (lastNamed rsp.headers.entries "Content-Encoding").or
        (response.fields.find "Content-Encoding") := by
    rw [find_headedMessage, if_neg (by decide), ResponseMessage.find_setKeepAlive _ _ (by decide)]
  have hlen : ¬ SameName "Content-Encoding" "Content-Length" := by decide
  have hte : ¬ SameName "Content-Encoding" "Transfer-Encoding" := by decide
  rw [writeResponseMessage_eq]
  dsimp only
  split_ifs <;>
    simp [ResponseMessage.find_preparePayload, ResponseMessage.find_set, hlen, hte, hheaded,
      SameName.refl]

/-- **When the client gets what the handler meant.**  Into a cleared message: the server did not
compress the body, or the codings the handler declared leave the body as it is. -/
theorem received_eq_meant_iff (C : Codings boost) (hmethod : request.method ≠ .head) :
    C.received (writeResponseMessage boost opts request rsp response.clear.clearBody) =
        C.meant rsp ↔
      ¬ gzips opts request rsp ∨ C.meant rsp = some rsp.body := by
  have hfields : response.clear.clearBody.fields.find "Content-Encoding" = none := rfl
  have hbody : response.clear.clearBody.body = "" := rfl
  unfold Codings.received
  rw [body_writeResponseMessage opts request rsp _ hmethod, find_contentEncoding, hfields, hbody,
    Option.or_none, String.empty_append]
  unfold codedBody
  by_cases hgzips : gzips opts request rsp
  · rw [if_pos hgzips, if_pos hgzips, C.content_gzip]
    simp [hgzips, eq_comm]
  · rw [if_neg hgzips, if_neg hgzips]
    simp [hgzips, Codings.meant]

end Written

/-! ## A client of the plain libraries -/

/-- What a coding puts in front of a text: the gzip filter its header, any other its name. -/
def marker (name : String) : String := if name = "gzip" then "gzipheader" else name

/-- Codings that put a marker in front of the text. -/
def plainCodings : Codings plainBoost where
  code name content := marker name ++ content
  undo name body :=
    if (marker name).toList <+: body.toList then
      some (String.ofList (body.toList.drop (marker name).toList.length))
    else none
  undo_code name content := by simp
  undo_gzip level content := by simp [plainBoost, marker]

/-- `GET /hello` without fields or body. -/
def plainGet : RequestMessage := ⟨.get, "/hello", 11, .empty, ""⟩

/-- The text `hello` in a coding of the handler's own, with forced gzip. -/
def codedReply : HttpResponse :=
  ((HttpResponse.new .OK "brhello" "text/plain").header "Content-Encoding" "br").withForceGzip

/-- `POST /hello` with a body, from a client that accepts gzip. -/
def acceptingPost : RequestMessage :=
  ⟨.post, "/hello", 11, Fields.empty.set "Accept-Encoding" "gzip, br", "hello"⟩

/-- After the response above: a text that the handler has not coded is compressed, and one that it
has coded is left alone, because automatic gzip is off. -/
theorem received_eq_meant_iff_hello :
    plainCodings.received (writeResponseMessage plainBoost { autoGzip := false } acceptingPost
        ((HttpResponse.new .OK "hello" "text/plain").withForceGzip)
        (writeResponseMessage plainBoost {} plainGet codedReply .fresh).clear.clearBody) =
        some "hello" ∧
      plainCodings.received (writeResponseMessage plainBoost { autoGzip := false } acceptingPost
        ((HttpResponse.new .OK "brhello" "text/plain").header "Content-Encoding" "br")
        (writeResponseMessage plainBoost {} plainGet codedReply .fresh).clear.clearBody) =
        some "hello" := by
  have hgzipped := received_eq_meant_iff { autoGzip := false } acceptingPost
    ((HttpResponse.new .OK "hello" "text/plain").withForceGzip)
    (writeResponseMessage plainBoost {} plainGet codedReply .fresh) plainCodings (by decide)
  have hcoded := received_eq_meant_iff { autoGzip := false } acceptingPost
    ((HttpResponse.new .OK "brhello" "text/plain").header "Content-Encoding" "br")
    (writeResponseMessage plainBoost {} plainGet codedReply .fresh) plainCodings (by decide)
  exact ⟨hgzipped.mpr (Or.inr (by decide)), hcoded.mpr (Or.inl (by decide))⟩

/-- The written message announces gzip alone, so the client is left with the handler's coding. -/
theorem received_codedReply :
    plainGet.method ≠ .head ∧ plainCodings.meant codedReply = some "hello" ∧
      plainCodings.received
        (writeResponseMessage plainBoost {} plainGet codedReply .fresh) = some "brhello" :=
  ⟨by decide, by decide, by decide⟩

end HttpServer
