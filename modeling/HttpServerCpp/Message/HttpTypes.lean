import Mathlib.Data.String.Basic
import HttpServerCpp.Core.SortedMap
import HttpServerCpp.Message.Fields

/-!
# Requests, responses and options

The public types of the server (`http_types.h`, `http_request.h`, `http_response.h`) and the two
Beast messages a session owns.  A `std::string` is a `String` whose characters are its bytes.

The libraries the session calls are collected in `Boost`, one function for each call whose code
is outside the repository.  `Boost.Documented` states what their documentation promises and the
session relies on; results that need it say so.
-/

namespace HttpServer

/-! ## Public types -/

/-- `StatusType`. -/
inductive StatusType where
  | OK | Bad_Request | Internal_Server_Error | Service_Temporary_Unavailable
deriving DecidableEq, Repr

/-- The number the enumerator stands for. -/
def StatusType.toNat : StatusType → Nat
  | OK => 200
  | Bad_Request => 400
  | Internal_Server_Error => 500
  | Service_Temporary_Unavailable => 503

/-- `MethodType`, in the order of its numbers 0 to 5. -/
inductive MethodType where
  | Unknown | Delete | GET | HEAD | POST | PUT
deriving DecidableEq, Repr

/-- `CompressionLevel`. -/
inductive CompressionLevel where
  | NoCompression | BestSpeed | BestCompression | DefaultCompression
deriving DecidableEq, Repr

/-- `HttpServerOptions`, with its defaults. -/
structure HttpServerOptions where
  addr : String := "0.0.0.0"
  port : UInt16 := 6000
  threadNum : UInt32 := 1
  readTimeOut : UInt64 := 60
  writeTimeOut : UInt64 := 60
  maxRequestSize : UInt64 := 2097152
  autoGzip : Bool := true
  autoDecodeUrlParameters : Bool := true
deriving DecidableEq

/-- `HttpStatistics`, what the application is told about its server.  Its 64-bit counters are
numbers, as in `HttpStatisticsInternal`. -/
structure HttpStatistics where
  sessionCnt : UInt32 := 0
  readTimeoutCnt : Nat := 0
  readSuccessCnt : Nat := 0
  readFailCnt : Nat := 0
  writeTimeoutCnt : Nat := 0
  writeSuccessCnt : Nat := 0
  writeFailCnt : Nat := 0
  handlerRequestCnt : Nat := 0
  workingHandlerCnt : Nat := 0
deriving DecidableEq

/-- `HttpRequest`, what a handler receives. -/
structure HttpRequest where
  method : MethodType
  sessionId : UInt64
  requestId : UInt64
  body : String
  segments : List String
  headers : SortedMap String String
  params : SortedMap String String
  requestStartTime : Nat

/-- `HttpResponse`, what a handler sends. -/
structure HttpResponse where
  forceGzip : Bool
  forceDisableKeepAlive : Bool
  status : StatusType
  contentType : String
  compressionLevel : CompressionLevel
  body : String
  headers : SortedMap String String

namespace HttpResponse

/-- `HttpResponse::HttpResponse`. -/
def new (status : StatusType) (body contentType : String) : HttpResponse where
  forceGzip := false
  forceDisableKeepAlive := false
  status := status
  contentType := contentType
  compressionLevel := .BestSpeed
  body := body
  headers := .empty

/-- `HttpResponse::forceGzip`. -/
def withForceGzip (rsp : HttpResponse) : HttpResponse := { rsp with forceGzip := true }

/-- `HttpResponse::forceDisableKeepAlive`. -/
def withForceDisableKeepAlive (rsp : HttpResponse) : HttpResponse :=
  { rsp with forceDisableKeepAlive := true }

/-- `HttpResponse::compressionLevel`. -/
def withCompressionLevel (rsp : HttpResponse) (level : CompressionLevel) : HttpResponse :=
  { rsp with compressionLevel := level }

/-- `HttpResponse::header`. -/
def header (rsp : HttpResponse) (name value : String) : HttpResponse :=
  { rsp with headers := rsp.headers.assign name value }

end HttpResponse

/-! ## The libraries -/

/-- `boost::urls::url_view` as the session reads it. -/
structure UrlView where
  segments : List String
  params : List (String × String)
  encodedParams : List (String × String)

/-- The calls whose code is outside the repository. -/
structure Boost where
  /-- `urls::parse_origin_form`; the error is only logged -/
  parseOriginForm : String → Option UrlView
  /-- `http::token_list{value}.exists(token)` -/
  tokenListExists : String → String → Bool
  /-- The `Connection` value that `keep_alive(b)` leaves in an HTTP/1.1 message whose value was
  the first argument; empty when the field is absent. -/
  keepAliveValue : String → Bool → String
  /-- Whether a `Transfer-Encoding` value makes `chunked()` true. -/
  chunkedValue : String → Bool
  /-- The `Transfer-Encoding` value with the chunked coding taken out. -/
  withoutChunked : String → String
  /-- The gzip filter of `boost::iostreams` over the whole string. -/
  gzip : CompressionLevel → String → String

/-- What the documentation of the libraries promises about keep-alive and gzip. -/
structure Boost.Documented (boost : Boost) : Prop where
  /-- `keep_alive()` reads back what `keep_alive(b)` has set -/
  keepAlive_set : ∀ value b, boost.keepAliveValue value b ≠ "" →
    boost.tokenListExists (boost.keepAliveValue value b) "close" = !b
  keepAlive_unset : ∀ value b, boost.keepAliveValue value b = "" → b = true
  /-- a gzip member starts with a ten-byte header, also around an empty body -/
  gzip_ne_empty : ∀ level body, boost.gzip level body ≠ ""

/-- The libraries on plain values: targets without escapes, parameters or user information,
`Connection` and `Transfer-Encoding` values of one token.  Its gzip puts an empty member header
before the text. -/
def plainBoost : Boost where
  parseOriginForm target :=
    match target.toList with
    | '/' :: rest =>
        some ⟨if rest = [] then [] else (rest.splitOn '/').map String.ofList, [], []⟩
    | _ => none
  tokenListExists value token := foldCase value = foldCase token
  keepAliveValue value b :=
    if b then (if SameName value "close" then "" else value) else "close"
  chunkedValue value := SameName value "chunked"
  withoutChunked value := if SameName value "chunked" then "" else value
  gzip _ body := "gzipheader" ++ body

/-- The assumptions hold of it. -/
lemma plainBoost_documented : plainBoost.Documented where
  keepAlive_set value b h := by
    cases b with
    | true =>
        by_cases hclose : SameName value "close"
        · simp [plainBoost, hclose] at h
        · have hfold : ¬ foldCase value = foldCase "close" := hclose
          simp [plainBoost, hclose, hfold]
    | false => simp [plainBoost]
  keepAlive_unset value b h := by
    cases b with
    | true => rfl
    | false => simp [plainBoost] at h
  gzip_ne_empty _ body := by
    intro h
    have := congrArg String.length h
    simp [plainBoost] at this

/-! ## Beast messages -/

/-- `beast::http::verb`: the enumerators up to `put` by name, every later one by its distance
from `put`. -/
inductive Verb where
  | unknown | delete | get | head | post | put
  | later (n : Nat)
deriving DecidableEq, Repr

/-- The number of an enumerator. -/
def Verb.toNat : Verb → Nat
  | unknown => 0
  | delete => 1
  | get => 2
  | head => 3
  | post => 4
  | put => 5
  | later n => 6 + n

/-- `beast::http::request<dynamic_body>`. -/
structure RequestMessage where
  method : Verb
  target : String
  version : Nat
  fields : Fields
  body : String
deriving DecidableEq

/-- A default-constructed request message. -/
def RequestMessage.fresh : RequestMessage := ⟨.unknown, "", 11, .empty, ""⟩

/-- `request_.keep_alive()`. -/
def RequestMessage.keepAlive (boost : Boost) (m : RequestMessage) : Bool :=
  if m.version < 11 then
    match m.fields.find "Connection" with
    | none => false
    | some value => boost.tokenListExists value "keep-alive"
  else
    match m.fields.find "Connection" with
    | none => true
    | some value => !boost.tokenListExists value "close"

/-- `async_read` into a message: the start line and the fields are replaced, the body octets are
appended to the body the message holds. -/
def RequestMessage.readInto (m received : RequestMessage) : RequestMessage :=
  { received with body := m.body ++ received.body }

/-- `request_.body().clear()`. -/
def RequestMessage.clearBody (m : RequestMessage) : RequestMessage := { m with body := "" }

/-- `beast::http::response<dynamic_body>`; its version stays 11. -/
structure ResponseMessage where
  result : Nat
  fields : Fields
  body : String
deriving DecidableEq

namespace ResponseMessage

/-- A default-constructed response message. -/
def fresh : ResponseMessage := ⟨200, .empty, ""⟩

/-- `response_.clear()`: the fields only. -/
def clear (m : ResponseMessage) : ResponseMessage := { m with fields := .empty }

/-- `response_.body().clear()`. -/
def clearBody (m : ResponseMessage) : ResponseMessage := { m with body := "" }

/-- `response_.set(name, value)`. -/
def set (m : ResponseMessage) (name value : String) : ResponseMessage :=
  { m with fields := m.fields.set name value }

/-- `response_.keep_alive()`. -/
def keepAlive (boost : Boost) (m : ResponseMessage) : Bool :=
  match m.fields.find "Connection" with
  | none => true
  | some value => !boost.tokenListExists value "close"

/-- `response_.keep_alive(b)`. -/
def setKeepAlive (boost : Boost) (m : ResponseMessage) (b : Bool) : ResponseMessage :=
  let value := boost.keepAliveValue (m.fields.get "Connection") b
  if value = "" then { m with fields := m.fields.erase "Connection" }
  else m.set "Connection" value

/-- `response_.chunked()`. -/
def chunked (boost : Boost) (m : ResponseMessage) : Bool :=
  match m.fields.find "Transfer-Encoding" with
  | none => false
  | some value => boost.chunkedValue value

/-- `response_.prepare_payload()` for a body of known size: `Content-Length` is set to it and
the chunked coding is taken out of `Transfer-Encoding`. -/
def preparePayload (boost : Boost) (m : ResponseMessage) : ResponseMessage :=
  let m := m.set "Content-Length" (toString m.body.length)
  match m.fields.find "Transfer-Encoding" with
  | none => m
  | some value =>
      if boost.withoutChunked value = "" then
        { m with fields := m.fields.erase "Transfer-Encoding" }
      else m.set "Transfer-Encoding" (boost.withoutChunked value)

end ResponseMessage

end HttpServer
