import HttpServerCpp.Message.OriginForm
import HttpServerCpp.Session.Dispatch

/-!
# The target a handler sees

Before a GET target is parsed, every `|` in it is replaced by `%7C` (`originTarget`), because
browsers send it as it is and the URI grammar does not have it.  `escape_transparent` says that
nobody can tell: the target is accepted exactly when it belongs to the grammar extended by `|`,
and a handler receives the segments and parameters of the target itself, where `|` stands for
`|`.

The parser is a parameter of the session.  Here it is assumed to read the origin-form as the RFC
defines it, as the documentation of Boost.URL says.
-/

namespace HttpServer

variable {H : Type} {ctx : Context H}

/-- A text without `|` has nothing to escape. -/
lemma escapePipe_of_not_mem : ∀ {t : List Char}, '|' ∉ t → escapePipe t = t := by
  intro t
  induction t with
  | nil =>
      intro _
      rfl
  | cons c rest ih =>
      intro h
      rw [List.mem_cons, not_or] at h
      rw [escapePipe, escapeWith_cons_ne (Ne.symm h.1), ← escapePipe, ih h.2]

/-- The test for `|` only saves the work of escaping. -/
lemma originTarget_get {request : RequestMessage} (hget : request.method = .get) :
    (originTarget request).toList = escapePipe request.target.toList := by
  unfold originTarget
  split_ifs with hpipe
  · rw [String.toList_ofList]
    rfl
  · exact (escapePipe_of_not_mem fun h => hpipe ⟨hget, h⟩).symm

/-- What the parser makes of a GET target. -/
lemma parse_originTarget {request : RequestMessage} (hget : request.method = .get) :
    rfcParseOriginForm (originTarget request) =
      (originForm (withPipe fun _ => false) request.target.toList).map fun v =>
        ⟨v.1, v.2, encodedParams (escapePipe request.target.toList)⟩ := by
  rw [rfcParseOriginForm, originTarget_get hget, originForm_escape]

/-- **Escaping `|` is transparent.**  A GET target passes the parser exactly when it is an
origin-form in which `|` may stand in the path and the query; and with decoding on, a handler
receives its segments, and for each key the value of its last parameter, with `|` as itself. -/
theorem escape_transparent (ctx : Context H)
    (hparse : ∀ target, ctx.boost.parseOriginForm target = rfcParseOriginForm target)
    (request : RequestMessage) (hget : request.method = .get) :
    ((ctx.boost.parseOriginForm (originTarget request)).isSome ↔
      IsOriginForm (withPipe fun _ => false) request.target.toList) ∧
    (ctx.opts.autoDecodeUrlParameters = true →
      ∀ (sessionId requestId : UInt64) (now : Nat) (handler : H) (r : HttpRequest),
        ctx.dispatch request sessionId requestId now = .handle handler r →
        ∃ segments params,
          originForm (withPipe fun _ => false) request.target.toList = some (segments, params) ∧
          r.segments = segments ∧
          ∀ entry, entry ∈ r.params.entries ↔ Survives params entry) := by
  constructor
  · rw [hparse, parse_originTarget hget, Option.isSome_map]
    exact originForm_isSome (by decide) (by decide) request.target.toList
  · intro hdecode sessionId requestId now handler r h
    obtain ⟨url, hurl, -, -, rfl⟩ := Context.dispatch_eq_handle_iff.mp h
    rw [hparse, parse_originTarget hget] at hurl
    rcases Option.map_eq_some_iff.mp hurl with ⟨⟨segments, params⟩, hform, rfl⟩
    refine ⟨segments, params, hform, rfl, fun entry => ?_⟩
    simp only [hdecode, if_true]
    exact mem_assignAll

/-- A server with one handler, registered under `/a|b`, whose parser follows the RFC. -/
def pipeContext : Context Nat where
  boost := { plainBoost with parseOriginForm := rfcParseOriginForm }
  opts := {}
  router := ⟨(HttpPathNode.new "").insert 7 ["a|b"]⟩

/-- `GET /a|b?k|=1&k%7C=|%7c+`: two spellings of one key. -/
def pipeRequest : RequestMessage := getRequest "/a|b?k|=1&k%7C=|%7c+"

theorem escape_transparent_pipes :
    IsOriginForm (withPipe fun _ => false) pipeRequest.target.toList ∧
      ∃ r, pipeContext.dispatch pipeRequest 1 1 0 = .handle 7 r ∧
        r.segments = ["a|b"] ∧ r.params.entries = [("k|", "|| ")] := by
  have hform : originForm (withPipe fun _ => false) pipeRequest.target.toList =
      some (["a|b"], [("k|", "1"), ("k|", "|| ")]) := by decide +kernel
  have hboost : ∀ target, pipeContext.boost.parseOriginForm target = rfcParseOriginForm target :=
    fun _ => rfl
  have hparse : pipeContext.boost.parseOriginForm (originTarget pipeRequest) =
      some ⟨["a|b"], [("k|", "1"), ("k|", "|| ")],
        encodedParams (escapePipe pipeRequest.target.toList)⟩ := by
    rw [hboost, parse_originTarget rfl, hform, Option.map_some]
  obtain ⟨haccepted, hreceived⟩ := escape_transparent pipeContext hboost pipeRequest rfl
  have hdispatch : ∃ r, pipeContext.dispatch pipeRequest 1 1 0 = .handle 7 r :=
    ⟨_, Context.dispatch_eq_handle_iff.mpr ⟨_, hparse, rfl, by decide, rfl⟩⟩
  obtain ⟨r, hr⟩ := hdispatch
  obtain ⟨segments, params, hform', hsegments, hparams⟩ := hreceived rfl 1 1 0 7 r hr
  obtain ⟨rfl, rfl⟩ := Prod.mk.inj (Option.some.inj (hform.symm.trans hform'))
  refine ⟨haccepted.mp (by rw [hparse]; rfl), r, hr, hsegments, ?_⟩
  -- the second of the two assignments is the one that survives
  refine SortedMap.entries_eq_singleton fun entry => ?_
  rw [hparams, ← lastAssigned_eq_some]
  by_cases hkey : "k|" = entry.1 <;> simp [lastAssigned, hkey, Prod.ext_iff, eq_comm]

end HttpServer
