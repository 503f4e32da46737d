import HttpServerCpp.Core.Stream
import HttpServerCpp.Message.AcceptEncoding
import HttpServerCpp.Message.Codings
import HttpServerCpp.Message.Framing

/-!
# A response on the wire

`serialize` is the HTTP/1.1 message that `async_write` sends for a response without a transfer
coding, `readMessage` the client's end: it reads the head, and then as much body as the method of
its request and `Content-Length` say.

* `readMessage_serialize`: the client reads the response that was written and leaves what follows.
* `endsWithin_writeResponseMessage` and `fields_writeResponseMessage`: which responses of a handler
  become messages that this holds of.
-/

namespace HttpServer

/-! ## Writing -/

/-- The version of every response. -/
def httpVersion : List Char := "HTTP/1.1".toList

/-- `name: value`. -/
def fieldLine (line : String × String) : List Char :=
  line.1.toList ++ ':' :: ' ' :: line.2.toList

/-- `HTTP/1.1 200 OK`, with the reason phrase the library has for the status. -/
def statusLine (reason : Nat → String) (result : Nat) : List Char :=
  httpVersion ++ ' ' :: ((toString result).toList ++ ' ' :: (reason result).toList)

/-- The octets of a response. -/
def serialize (reason : Nat → String) (m : ResponseMessage) : List Char :=
  writeLines (statusLine reason m.result :: m.fields.lines.map fieldLine) ++ m.body.toList

/-! ## Reading -/

/-- The status that a status line announces. -/
def readStatus (line : List Char) : Option Nat :=
  if (cut ' ' line).1 = httpVersion then
    (cut ' ' line).2.bind fun rest => contentLength (String.ofList (cut ' ' rest).1)
  else none

/-- The name and the value of a field line. -/
def readField (line : List Char) : Option (String × String) :=
  (cut ':' line).2.map fun value =>
    (String.ofList (cut ':' line).1, String.ofList (trimBlanks value))

/-- Status and fields. -/
def readHead : List (List Char) → Option ResponseMessage
  | [] => none
  | start :: lines =>
      (readStatus start).bind fun result =>
        (lines.mapM readField).map fun fields => ⟨result, ⟨fields⟩, ""⟩

/-- The body behind a head.  There is none in the response to HEAD; else `Content-Length` is its
size, and without one it goes on until the connection is closed. -/
def readBody (method : Verb) (head : ResponseMessage) (octets : List Char) :
    Option (ResponseMessage × List Char) :=
  if method = .head then some (head, octets)
  else
    match head.fields.find "Content-Length" with
    | none => some ({ head with body := String.ofList octets }, [])
    | some value =>
        (contentLength value).bind fun n =>
          if octets.length < n then none
          else some ({ head with body := String.ofList (octets.take n) }, octets.drop n)

/-- The response to a request of that method that a stream begins with. -/
def readMessage (method : Verb) (octets : List Char) : Option (ResponseMessage × List Char) :=
  (takeLines octets.length octets).bind fun head =>
    (readHead head.1).bind fun m =>
      if (m.fields.find "Transfer-Encoding").isSome then none else readBody method m head.2

/-! ## What can be written so that it is read -/

/-- A field name that a field line can hold. -/
def LegalName (name : String) : Prop := ':' ∉ name.toList ∧ '\r' ∉ name.toList

/-- A field value that a field line can hold, without blanks around it. -/
def LegalValue (value : String) : Prop :=
  '\r' ∉ value.toList ∧ trimBlanks value.toList = value.toList

instance (name : String) : Decidable (LegalName name) :=
  inferInstanceAs (Decidable (_ ∧ _))

instance (value : String) : Decidable (LegalValue value) :=
  inferInstanceAs (Decidable (_ ∧ _))

/-- Every field line can be written. -/
def Fields.Legal (fs : Fields) : Prop := ∀ line ∈ fs.lines, LegalName line.1 ∧ LegalValue line.2

/-- The reader of the response to such a request knows where the message ends: at the latest where
the connection does, if it is `closed` after it. -/
def EndsWithin (method : Verb) (m : ResponseMessage) (closed : Bool) : Prop :=
  (method = .head ∧ m.body = "") ∨
    method ≠ .head ∧
      ((∃ value, m.fields.find "Content-Length" = some value ∧
          contentLength value = some m.body.length) ∨
        m.fields.find "Content-Length" = none ∧ closed = true)

/-! ## The round trip -/

lemma isDigit_of_mem_toString {n : Nat} {c : Char} (h : c ∈ (toString n).toList) :
    c.isDigit = true := by
  have htoList : (toString n).toList = Nat.toDigits 10 n := Nat.toList_repr
  rw [htoList] at h
  exact Nat.isDigit_of_mem_toDigits (by decide) (by decide) h

lemma not_mem_toString {c : Char} (hc : c.isDigit = false) (n : Nat) :
    c ∉ (toString n).toList := by
  intro h
  rw [isDigit_of_mem_toString h] at hc
  cases hc

lemma readStatus_statusLine (reason : Nat → String) (result : Nat) :
    readStatus (statusLine reason result) = some result := by
  have hversion : ' ' ∉ httpVersion := by decide
  have hnumber : ' ' ∉ (toString result).toList := not_mem_toString (by decide) result
  rw [readStatus, statusLine, cut_append hversion, if_pos rfl, Option.bind_some,
    cut_append hnumber, String.ofList_toList, contentLength_toString]

lemma trimBlanks_cons_blank (t : List Char) : trimBlanks (' ' :: t) = trimBlanks t := by
  simp [trimBlanks, isBlank]

lemma readField_fieldLine {line : String × String} (hname : LegalName line.1)
    (hvalue : LegalValue line.2) : readField (fieldLine line) = some line := by
  rw [readField, fieldLine, cut_append hname.1, Option.map_some, trimBlanks_cons_blank, hvalue.2,
    String.ofList_toList, String.ofList_toList]

lemma readFields_fieldLines {lines : List (String × String)}
    (h : ∀ line ∈ lines, LegalName line.1 ∧ LegalValue line.2) :
    (lines.map fieldLine).mapM readField = some lines := by
  induction lines with
  | nil => simp
  | cons line lines ih =>
      rw [List.forall_mem_cons] at h
      simp [List.mapM_cons, readField_fieldLine h.1.1 h.1.2, ih h.2]

section RoundTrip

variable {reason : Nat → String} {m : ResponseMessage} {method : Verb}

/-- The lines of a head can be told apart. -/
lemma headLines_separate (hreason : '\r' ∉ (reason m.result).toList) (hlegal : m.fields.Legal) :
    ∀ line ∈ statusLine reason m.result :: m.fields.lines.map fieldLine,
      line ≠ [] ∧ '\r' ∉ line := by
  have hversion : '\r' ∉ httpVersion := by decide
  have hnumber : '\r' ∉ (toString m.result).toList := not_mem_toString (by decide) m.result
  rw [List.forall_mem_cons]
  constructor
  · refine ⟨by simp [statusLine], ?_⟩
    simp only [statusLine, List.mem_append, List.mem_cons, hversion, hnumber, hreason, or_false]
    decide
  · simp only [List.mem_map, forall_exists_index, and_imp, forall_apply_eq_imp_iff₂]
    intro line hline
    obtain ⟨hname, hvalue⟩ := hlegal line hline
    simp [fieldLine, hname.2, hvalue.1]

lemma readBody_written {closed : Bool} (hends : EndsWithin method m closed) {rest : List Char}
    (hrest : closed = true → m.fields.find "Content-Length" = none → rest = []) :
    readBody method { m with body := "" } (m.body.toList ++ rest) = some (m, rest) := by
  have hlength : m.body.toList.length = m.body.length := String.length_toList
  rcases hends with ⟨hhead, hbody⟩ | ⟨hmethod, ⟨value, hfind, hvalue⟩ | ⟨hfind, hclosed⟩⟩
  · have hempty : ({ m with body := "" } : ResponseMessage) = m := by rw [← hbody]
    rw [readBody, if_pos hhead, hempty, hbody]
    rfl
  · simp only [readBody, if_neg hmethod, hfind, hvalue, Option.bind_some]
    have htake : (m.body.toList ++ rest).take m.body.length = m.body.toList := by
      rw [← hlength, List.take_left]
    have hdrop : (m.body.toList ++ rest).drop m.body.length = rest := by
      rw [← hlength, List.drop_left]
    have hlong : ¬ (m.body.toList ++ rest).length < m.body.length := by
      rw [List.length_append]
      omega
    rw [if_neg hlong, htake, hdrop, String.ofList_toList]
  · simp only [readBody, if_neg hmethod, hfind]
    rw [hrest hclosed hfind, List.append_nil, String.ofList_toList]

/-- **Round trip.**  The client reads the response and leaves what follows it; where the end of
the connection has to end it, nothing follows. -/
theorem readMessage_serialize (hreason : '\r' ∉ (reason m.result).toList) (hlegal : m.fields.Legal)
    (hcoding : m.fields.find "Transfer-Encoding" = none) {closed : Bool}
    (hends : EndsWithin method m closed) {rest : List Char}
    (hrest : closed = true → m.fields.find "Content-Length" = none → rest = []) :
    readMessage method (serialize reason m ++ rest) = some (m, rest) := by
  have hlines : takeLines (serialize reason m ++ rest).length (serialize reason m ++ rest) =
      some (statusLine reason m.result :: m.fields.lines.map fieldLine,
        m.body.toList ++ rest) := by
    rw [serialize, List.append_assoc]
    refine takeLines_written (headLines_separate hreason hlegal) _ ?_
    have := length_lt_writeLines (statusLine reason m.result :: m.fields.lines.map fieldLine)
    rw [List.length_append]
    omega
  have hhead : readHead (statusLine reason m.result :: m.fields.lines.map fieldLine) =
      some { m with body := "" } := by
    rw [readHead, readStatus_statusLine, readFields_fieldLines hlegal, Option.bind_some,
      Option.map_some]
  rw [readMessage, hlines, Option.bind_some, hhead, Option.bind_some, hcoding]
  exact readBody_written hends hrest

end RoundTrip

/-! ## What a handler may send -/

/-- Headers that can be written and that name no transfer coding. -/
structure HttpResponse.Writable (rsp : HttpResponse) : Prop where
  contentType : LegalValue rsp.contentType
  headers : ∀ entry ∈ rsp.headers.entries, LegalName entry.1 ∧ LegalValue entry.2
  uncoded : lastNamed rsp.headers.entries "Transfer-Encoding" = none

/-- The client can see where the response to the request ends: there is no body to expect, or one
is sent, or the headers announce that it is empty, or the connection is closed after it. -/
def Ends (boost : Boost) (request : RequestMessage) (rsp : HttpResponse) : Prop :=
  request.method = .head ∨ rsp.forceGzip = true ∨ rsp.body ≠ "" ∨
    (∃ value, lastNamed rsp.headers.entries "Content-Length" = some value ∧
      contentLength value = some 0) ∨
    lastNamed rsp.headers.entries "Content-Length" = none ∧ keepsAlive boost request rsp = false

namespace Fields

variable {fs : Fields} {name value : String}

lemma Legal.erase (h : fs.Legal) (name : String) : (fs.erase name).Legal :=
  fun line hline => h line (List.mem_of_mem_filter hline)

lemma Legal.set (h : fs.Legal) (hname : LegalName name) (hvalue : LegalValue value) :
    (fs.set name value).Legal := by
  intro line hline
  rcases List.mem_append.mp hline with hold | hnew
  · exact h.erase name line hold
  · rw [List.mem_singleton.mp hnew]
    exact ⟨hname, hvalue⟩

lemma Legal.setAll {entries : List (String × String)} :
    ∀ {fs : Fields}, fs.Legal → (∀ e ∈ entries, LegalName e.1 ∧ LegalValue e.2) →
      (fs.setAll entries).Legal := by
  induction entries with
  | nil =>
      intro fs h _
      exact h
  | cons e entries ih =>
      intro fs h hentries
      rw [List.forall_mem_cons] at hentries
      exact ih (h.set hentries.1.1 hentries.1.2) hentries.2

end Fields

section Written

variable {boost : Boost} {rsp : HttpResponse}

lemma legal_toString (n : Nat) : LegalValue (toString n) := by
  have hblank : ∀ c ∈ (toString n).toList, isBlank c = false := by
    intro c hc
    have hdigit := isDigit_of_mem_toString hc
    by_contra hnot
    rw [Bool.not_eq_false, isBlank, Bool.or_eq_true, decide_eq_true_eq, decide_eq_true_eq] at hnot
    rcases hnot with rfl | rfl <;> revert hdigit <;> decide
  have hkept : (toString n).toList.dropWhile isBlank = (toString n).toList := by
    rw [List.dropWhile_eq_self_iff]
    intro hpos
    simpa using hblank _ (List.getElem_mem hpos)
  refine ⟨not_mem_toString (by decide) n, ?_⟩
  rw [trimBlanks, hkept, List.rdropWhile_eq_self_iff]
  intro hne
  simpa using hblank _ (List.getLast_mem hne)

/-- Into a fresh message only `Connection` and what the handler names are written. -/
lemma legal_headedMessage (hconnection : ∀ b, LegalValue (boost.keepAliveValue "" b))
    (request : RequestMessage) (hrsp : rsp.Writable) :
    (headedMessage boost request rsp .fresh).fields.Legal := by
  have hempty : (ResponseMessage.fresh.fields).Legal := fun line hline => by
    simp [ResponseMessage.fresh, Fields.empty] at hline
  have hkeep : ∀ b, (ResponseMessage.fresh.setKeepAlive boost b).fields.Legal := by
    intro b
    unfold ResponseMessage.setKeepAlive
    dsimp only
    split_ifs
    · exact hempty.erase _
    · exact hempty.set (by decide) (hconnection b)
  exact ((hkeep _).set (by decide) hrsp.contentType).setAll hrsp.headers

/-- The handler's transfer coding is all there could be. -/
lemma find_coding_headedMessage (request : RequestMessage) (hrsp : rsp.Writable) :
    (headedMessage boost request rsp .fresh).fields.find "Transfer-Encoding" = none := by
  rw [find_headedMessage, hrsp.uncoded, Option.none_or, if_neg (by decide),
    ResponseMessage.find_setKeepAlive _ _ (by decide)]
  rfl

/-- Gzip and the size of the body are all that is added to it. -/
lemma fields_writeResponseMessage (opts : HttpServerOptions) (request : RequestMessage)
    (hrsp : rsp.Writable) (hconnection : ∀ b, LegalValue (boost.keepAliveValue "" b)) :
    (writeResponseMessage boost opts request rsp .fresh).fields.Legal ∧
      (writeResponseMessage boost opts request rsp .fresh).fields.find "Transfer-Encoding" =
        none := by
  have hheaded := legal_headedMessage hconnection request hrsp
  have hcoding := @find_coding_headedMessage boost rsp request hrsp
  rw [writeResponseMessage_eq]
  generalize headedMessage boost request rsp .fresh = headed at hheaded hcoding
  dsimp only
  generalize hcoded : (if gzips opts request rsp then
    headed.set "Content-Encoding" "gzip" else headed) = coded
  have hlegal : coded.fields.Legal ∧ coded.fields.find "Transfer-Encoding" = none := by
    rw [← hcoded]
    split_ifs
    · exact ⟨hheaded.set (by decide) (by decide), by
        rw [ResponseMessage.find_set, if_neg (by decide), hcoding]⟩
    · exact ⟨hheaded, hcoding⟩
  have hprepared : ∀ octets, (({ coded with body := octets } : ResponseMessage).preparePayload
      boost).fields.Legal ∧ (({ coded with body := octets } : ResponseMessage).preparePayload
      boost).fields.find "Transfer-Encoding" = none := by
    intro octets
    have hpayload : ({ coded with body := octets } : ResponseMessage).preparePayload boost =
        ({ coded with body := octets } : ResponseMessage).set "Content-Length"
          (toString octets.length) := preparePayload_of_find_none hlegal.2
    rw [hpayload]
    exact ⟨hlegal.1.set (by decide) (legal_toString _), by
      rw [ResponseMessage.find_set, if_neg (by decide), hlegal.2]⟩
  split_ifs
  · exact hlegal
  · exact hprepared coded.body
  · exact hprepared _

/-- **Where a response ends.**  The client can see it exactly when `Ends` says so. -/
theorem endsWithin_writeResponseMessage (hdoc : boost.Documented) (opts : HttpServerOptions)
    (request : RequestMessage) (rsp : HttpResponse) :
    EndsWithin request.method (writeResponseMessage boost opts request rsp .fresh)
        (!keepsAlive boost request rsp) ↔ Ends boost request rsp := by
  unfold EndsWithin Ends
  by_cases hmethod : request.method = .head
  · have hbody : (writeResponseMessage boost opts request rsp .fresh).body = "" :=
      body_writeResponseMessage_of_head opts request rsp .fresh hmethod
    simp [hmethod, hbody]
  · by_cases hempty : codedBody boost opts request rsp = ""
    · obtain ⟨hforce, hnobody⟩ := (codedBody_eq_empty hdoc opts request rsp).mp hempty
      have hbody := @body_writeResponseMessage boost opts request rsp .fresh hmethod
      rw [hempty, String.append_empty] at hbody
      have hfind : (writeResponseMessage boost opts request rsp .fresh).fields.find
          "Content-Length" = lastNamed rsp.headers.entries "Content-Length" := by
        rw [writeResponseMessage_of_empty hdoc hempty, find_headedMessage, if_neg (by decide),
          ResponseMessage.find_setKeepAlive _ _ (by decide)]
        exact Option.or_none
      rw [hbody, hfind]
      simp [hmethod, hforce, hnobody, ResponseMessage.fresh]
    · have hfind := find_contentLength_of_ne_empty hempty .fresh
      have hbody : rsp.forceGzip = true ∨ rsp.body ≠ "" := by
        by_contra hnot
        rw [not_or, Bool.not_eq_true, not_not] at hnot
        exact hempty ((codedBody_eq_empty hdoc opts request rsp).mpr hnot)
      rw [hfind]
      simp only [hmethod, false_and, false_or, not_false_eq_true, ne_eq, true_and]
      constructor
      · intro _
        rcases hbody with h | h
        · exact Or.inl h
        · exact Or.inr (Or.inl h)
      · intro _
        exact Or.inl ⟨_, rfl, contentLength_toString _⟩

end Written

end HttpServer
